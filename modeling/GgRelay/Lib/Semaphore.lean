import Mathlib.Tactic

/-!
A counting semaphore with a first-in-first-out queue of waiters, in the style of an event loop:
a release hands its slot to the first waiter that has none by completing that waiter's future,
and the waiter takes the slot out of the queue only when it is scheduled again.

* `Semaphore.acquire`, `Semaphore.resume`, `Semaphore.abandon`: the three ends of an `acquire`,
  at once, after waiting, and by an exception thrown into the wait;
* `Semaphore.release` and the loop `Semaphore.wakeAll` that serves the queue;
* `Semaphore.free`: the slots owned by nobody outside the semaphore, those of the counter and
  those already granted to a waiter. `free_release`, `free_acquire`, `free_resume` and
  `free_abandon` say what each operation does to it, which is all that a client's accounting
  of slots needs;
* `Semaphore.names`: who is in the queue, with the same lemmas.
-/

namespace GgRelay

universe u

/-- The counter and the queue of waiters; a waiter is marked once its future has been given a
slot. -/
structure Semaphore (W : Type u) where
  value : ℕ
  waiters : List (W × Bool)

namespace Semaphore

variable {W : Type u}

/-- The number of waiters that have been given a slot and have not run since. -/
def granted (s : Semaphore W) : ℕ := s.waiters.countP (·.2)

/-- The slots not in anybody's hands. -/
def free (s : Semaphore W) : ℕ := s.value + s.granted

/-- Give a slot to the first waiter that has none; nothing if there is no such waiter. -/
def wakeNext : List (W × Bool) → Option (List (W × Bool))
  | [] => none
  | (w, true) :: ws => (wakeNext ws).map ((w, true) :: ·)
  | (w, false) :: ws => some ((w, true) :: ws)

/-- Give away the `n` slots of the counter as long as somebody waits for one. -/
def wakeAll : ℕ → List (W × Bool) → Semaphore W
  | 0, ws => ⟨0, ws⟩
  | n + 1, ws =>
      match wakeNext ws with
      | some ws' => wakeAll n ws'
      | none => ⟨n + 1, ws⟩

/-- A newcomer has to queue: the counter is at zero, or somebody is queueing already. -/
def locked (s : Semaphore W) : Bool := s.value == 0 || !s.waiters.isEmpty

/-- Put a slot back; the first waiter without one gets it. -/
def release (s : Semaphore W) : Semaphore W :=
  match wakeNext s.waiters with
  | some ws => ⟨s.value, ws⟩
  | none => ⟨s.value + 1, s.waiters⟩

/-- Ask for a slot: the answer says whether it was taken at once. -/
def acquire (s : Semaphore W) (w : W) : Semaphore W × Bool :=
  if s.locked then (⟨s.value, s.waiters ++ [(w, false)]⟩, false)
  else (⟨s.value - 1, s.waiters⟩, true)

/-- Remove the waiter `w` from the queue and tell whether it had been given a slot. -/
def take [DecidableEq W] (w : W) : List (W × Bool) → Option (Bool × List (W × Bool))
  | [] => none
  | (v, b) :: ws =>
      if v = w then some (b, ws) else (take w ws).map fun r => (r.1, (v, b) :: r.2)

/-- The waiter `w` runs again with its slot; impossible before it was given one. -/
def resume [DecidableEq W] (s : Semaphore W) (w : W) : Option (Semaphore W) :=
  match take w s.waiters with
  | some (true, ws) => some (wakeAll s.value ws)
  | _ => none

/-- An exception ends the wait of `w`; a slot it had been given goes back. -/
def abandon [DecidableEq W] (s : Semaphore W) (w : W) : Semaphore W :=
  match take w s.waiters with
  | some (true, ws) => wakeAll (s.value + 1) ws
  | some (false, ws) => wakeAll s.value ws
  | none => s

/-! ### The accounting of slots -/

/-- A semaphore nobody has used yet. -/
def new (n : ℕ) : Semaphore W := ⟨n, []⟩

@[simp] lemma value_new (n : ℕ) : (new n : Semaphore W).value = n := rfl

@[simp] lemma free_new (n : ℕ) : (new n : Semaphore W).free = n := rfl

lemma value_le_free (s : Semaphore W) : s.value ≤ s.free := Nat.le_add_right _ _

/-- Waking a waiter grants exactly one more slot. -/
lemma countP_wakeNext : ∀ {ws ws' : List (W × Bool)}, wakeNext ws = some ws' →
    ws'.countP (·.2) = ws.countP (·.2) + 1
  | [], _, h => by simp [wakeNext] at h
  | (w, true) :: ws, _, h => by
      obtain ⟨vs, hvs, rfl⟩ := Option.map_eq_some_iff.mp h
      simp [countP_wakeNext hvs]
  | (w, false) :: ws, _, h => by
      cases h
      simp

/-- Serving the queue keeps the slots that are in nobody's hands. -/
lemma free_wakeAll (n : ℕ) (ws : List (W × Bool)) :
    (wakeAll n ws).free = n + ws.countP (·.2) := by
  induction n generalizing ws with
  | zero => simp [wakeAll, free, granted]
  | succ n ih =>
      rw [wakeAll]
      cases h : wakeNext ws with
      | none => rfl
      | some ws' =>
          have hc := countP_wakeNext h
          simp only [ih]
          omega

@[simp] lemma free_release (s : Semaphore W) : s.release.free = s.free + 1 := by
  rw [release]
  cases h : wakeNext s.waiters with
  | none => simp only [free, granted]; omega
  | some ws =>
      have hc := countP_wakeNext h
      simp only [free, granted]
      omega

/-- A slot taken at once comes out of the counter. -/
lemma free_acquire_true {s s' : Semaphore W} {w : W} (h : s.acquire w = (s', true)) :
    s'.free + 1 = s.free := by
  rw [acquire] at h
  split at h
  · simp at h
  · rename_i hl
    cases h
    simp only [locked, Bool.or_eq_true, beq_iff_eq, not_or] at hl
    simp only [free, granted]
    omega

/-- Joining the queue takes no slot. -/
lemma free_acquire_false {s s' : Semaphore W} {w : W} (h : s.acquire w = (s', false)) :
    s'.free = s.free := by
  rw [acquire] at h
  split at h
  · cases h
    simp [free, granted]
  · simp at h

section Queue

variable [DecidableEq W]

lemma countP_take {w : W} : ∀ {ws ws' : List (W × Bool)} {b : Bool}, take w ws = some (b, ws') →
    ws'.countP (·.2) + b.toNat = ws.countP (·.2)
  | [], _, _, h => by simp [take] at h
  | (v, c) :: ws, ws', b, h => by
      rw [take] at h
      split at h
      · cases h
        cases c <;> simp
      · obtain ⟨⟨b', vs⟩, hr, he⟩ := Option.map_eq_some_iff.mp h
        cases he
        have ih := countP_take hr
        cases c <;> simp <;> omega

/-- A waiter that runs again carries one slot away. -/
lemma free_resume {s s' : Semaphore W} {w : W} (h : s.resume w = some s') :
    s'.free + 1 = s.free := by
  rw [resume] at h
  split at h
  · rename_i ws ht
    cases h
    have hc := countP_take ht
    rw [free_wakeAll]
    simp only [free, granted, Bool.toNat_true] at hc ⊢
    omega
  · simp at h

/-- A wait that ends in an exception carries no slot away. -/
@[simp] lemma free_abandon (s : Semaphore W) (w : W) : (s.abandon w).free = s.free := by
  rw [abandon]
  split
  · rename_i ws ht
    have hc := countP_take ht
    rw [free_wakeAll]
    simp only [free, granted, Bool.toNat_true] at hc ⊢
    omega
  · rename_i ws ht
    have hc := countP_take ht
    rw [free_wakeAll]
    simp only [free, granted, Bool.toNat_false] at hc ⊢
    omega
  · rfl

end Queue

/-! ### The queue -/

/-- Who is in the queue, in order. -/
def names (s : Semaphore W) : List W := s.waiters.map (·.1)

lemma granted_eq_zero {s : Semaphore W} (h : s.names = []) : s.granted = 0 := by
  have hw : s.waiters = [] := List.map_eq_nil_iff.mp h
  rw [granted, hw, List.countP_nil]

lemma names_wakeNext : ∀ {ws ws' : List (W × Bool)}, wakeNext ws = some ws' →
    ws'.map (·.1) = ws.map (·.1)
  | [], _, h => by simp [wakeNext] at h
  | (w, true) :: ws, _, h => by
      obtain ⟨vs, hvs, rfl⟩ := Option.map_eq_some_iff.mp h
      simp [names_wakeNext hvs]
  | (w, false) :: ws, _, h => by
      cases h
      simp

lemma names_wakeAll (n : ℕ) (ws : List (W × Bool)) : (wakeAll n ws).names = ws.map (·.1) := by
  induction n generalizing ws with
  | zero => rfl
  | succ n ih =>
      rw [wakeAll]
      cases h : wakeNext ws with
      | none => rfl
      | some ws' => simp only [ih, names_wakeNext h]

@[simp] lemma names_new (n : ℕ) : (new n : Semaphore W).names = [] := rfl

@[simp] lemma names_release (s : Semaphore W) : s.release.names = s.names := by
  rw [release]
  cases h : wakeNext s.waiters with
  | none => rfl
  | some ws => exact names_wakeNext h

lemma names_acquire_true {s s' : Semaphore W} {w : W} (h : s.acquire w = (s', true)) :
    s'.names = s.names := by
  rw [acquire] at h
  split at h
  · simp at h
  · cases h
    rfl

lemma names_acquire_false {s s' : Semaphore W} {w : W} (h : s.acquire w = (s', false)) :
    s'.names = s.names ++ [w] := by
  rw [acquire] at h
  split at h
  · cases h
    simp [names]
  · simp at h

section Leave

variable [DecidableEq W]

lemma names_take {w : W} : ∀ {ws ws' : List (W × Bool)} {b : Bool}, take w ws = some (b, ws') →
    ws'.map (·.1) = (ws.map (·.1)).erase w
  | [], _, _, h => by simp [take] at h
  | (v, c) :: ws, ws', b, h => by
      rw [take] at h
      split at h
      · rename_i hv
        cases h
        simp [hv]
      · rename_i hv
        obtain ⟨⟨b', vs⟩, hr, he⟩ := Option.map_eq_some_iff.mp h
        cases he
        have ih := names_take hr
        simp [hv, ih]

lemma take_eq_none {w : W} : ∀ {ws : List (W × Bool)}, take w ws = none → w ∉ ws.map (·.1)
  | [], _ => by simp
  | (v, c) :: ws, h => by
      rw [take] at h
      split at h
      · simp at h
      · rename_i hv
        have ih := take_eq_none (Option.map_eq_none_iff.mp h)
        simp only [List.map_cons, List.mem_cons, not_or]
        exact ⟨fun he => hv he.symm, ih⟩

lemma names_resume {s s' : Semaphore W} {w : W} (h : s.resume w = some s') :
    s'.names = s.names.erase w := by
  rw [resume] at h
  split at h
  · rename_i ws ht
    cases h
    rw [names_wakeAll, names_take ht, names]
  · simp at h

@[simp] lemma names_abandon (s : Semaphore W) (w : W) :
    (s.abandon w).names = s.names.erase w := by
  rw [abandon]
  split
  · rename_i ws ht
    rw [names_wakeAll, names_take ht, names]
  · rename_i ws ht
    rw [names_wakeAll, names_take ht, names]
  · rename_i ht
    exact (List.erase_of_not_mem (take_eq_none ht)).symm

end Leave

end Semaphore

end GgRelay
