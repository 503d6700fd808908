import GgRelay.Lib.System

/-!
Single flight: concurrent callers with one key share one computation.

The first caller leads: it runs the computation and leaves a future under its key.  The others await
that future directly, so a cancellation of one of them cancels the future.

* `Flights` is the table of futures with its callers, over any keys and any answers, and
  `Flights.step` a step of one caller;
* `Flights.WellFormed` holds along every run: the table names the leaders and nobody else;
* `FlightGuard` is the condition under which nobody suffers from the cancellation of another:
  `Flights.Served` is what follows from it, along every run (`served_of_reachable`).

A caller is known by the number of its call, and its future by the same number.
-/

namespace GgRelay

universe u v

/-- A future. -/
inductive FutureState (α : Type v) where
  | pending
  | settled (a : α)
  | cancelled
  deriving DecidableEq, Repr

/-- Where a caller is. -/
inductive FlightStage (κ : Type u) (α : Type v) where
  | absent
  /-- it runs the computation -/
  | leading (key : κ)
  /-- it awaits the future of another caller -/
  | waiting (key : κ) (leader : ℕ)
  /-- over, on the future of `leader` if on one; `none` is a cancellation -/
  | done (leader : Option ℕ) (a : Option α)
  deriving DecidableEq, Repr

/-- The caller awaits the future `l`. -/
def FlightStage.waitsOn {κ : Type u} {α : Type v} (l : ℕ) : FlightStage κ α → Bool
  | .waiting _ leader => leader = l
  | _ => false

/-- A caller. -/
structure FlightCall (κ : Type u) (α : Type v) where
  stage : FlightStage κ α := .absent
  cancelRequested : Bool := false
  deriving DecidableEq

/-- The futures and their callers. -/
structure Flights (κ : Type u) (α : Type v) where
  inflight : κ → Option ℕ := fun _ => none
  futures : ℕ → FutureState α := fun _ => .pending
  calls : ℕ → FlightCall κ α := fun _ => {}
  /-- the call numbers in use are those below -/
  next : ℕ := 0
  /-- history: what the computation of a leader came to -/
  answers : ℕ → Option α := fun _ => none

inductive FlightLabel (κ : Type u) (α : Type v) where
  /-- a call that needs no computation -/
  | hit (a : α)
  /-- a call that shares one, or starts one -/
  | join (key : κ)
  /-- a computation comes to its end -/
  | finish (i : ℕ) (a : α)
  /-- a caller goes on from the future it awaits -/
  | wake (i : ℕ)
  | cancel (i : ℕ)
  /-- the cancellation reaches a leader -/
  | deliver (i : ℕ)
  deriving DecidableEq

namespace Flights

variable {κ : Type u} {α : Type v} [DecidableEq κ] [DecidableEq α]

section Step

variable (f : Flights κ α)

def setCall (i : ℕ) (c : FlightCall κ α) : Flights κ α :=
  { f with calls := Function.update f.calls i c }

def setStage (i : ℕ) (x : FlightStage κ α) : Flights κ α :=
  f.setCall i { f.calls i with stage := x }

/-- A new call. -/
def enter (x : FlightStage κ α) : Flights κ α :=
  { f.setCall f.next { stage := x } with next := f.next + 1 }

/-- A new call that runs the computation. -/
def lead (key : κ) : Flights κ α :=
  { f.enter (.leading key) with inflight := Function.update f.inflight key (some f.next) }

/-- The future is settled, unless it is done. -/
def settle (i : ℕ) (a : α) : Flights κ α :=
  { f with
    futures := if f.futures i = .pending then Function.update f.futures i (.settled a) else f.futures
    answers := Function.update f.answers i (some a) }

/-- The leader takes its future out of the table, and its call is over. -/
def leave (i : ℕ) (key : κ) (a : Option α) : Flights κ α :=
  { f.setStage i (.done (some i) a) with inflight := Function.update f.inflight key none }

/-- The cancellation of a caller that awaits the future `l`. -/
def cancelFuture (l : ℕ) : Flights κ α :=
  { f with
    futures := if f.futures l = .pending then Function.update f.futures l .cancelled else f.futures }

def step : FlightLabel κ α → Option (Flights κ α)
  | .hit a => some (f.enter (.done none (some a)))
  | .join key =>
      match f.inflight key with
      | none => some (f.lead key)
      | some l =>
          match f.futures l with
          | .pending => some (f.enter (.waiting key l))
          | .settled a => some (f.enter (.done (some l) (some a)))
          | .cancelled => some (f.enter (.done (some l) none))
  | .finish i a =>
      match (f.calls i).stage with
      | .leading key => some ((f.settle i a).leave i key (some a))
      | _ => none
  | .wake i =>
      match (f.calls i).stage with
      | .waiting _ l =>
          match f.futures l with
          | .pending => none
          | .settled a =>
              some (f.setStage i
                (.done (some l) (if (f.calls i).cancelRequested then none else some a)))
          | .cancelled => some (f.setStage i (.done (some l) none))
      | _ => none
  | .cancel i =>
      match (f.calls i).stage with
      | .leading _ => some (f.setCall i { f.calls i with cancelRequested := true })
      | .waiting _ l =>
          some ((f.setCall i { f.calls i with cancelRequested := true }).cancelFuture l)
      | _ => none
  | .deliver i =>
      match (f.calls i).stage with
      | .leading key => if (f.calls i).cancelRequested then some (f.leave i key none) else none
      | _ => none

/-- Nobody awaits the future `l`, but possibly the caller `i`. -/
def Alone (l : ℕ) (i : Option ℕ) : Prop :=
  ∀ j < f.next, some j ≠ i → (f.calls j).stage.waitsOn l = false

instance (l : ℕ) (i : Option ℕ) : Decidable (f.Alone l i) := by
  unfold Alone
  infer_instance

end Step

end Flights

/-- The system of the callers. -/
def flightSystem (κ : Type u) (α : Type v) [DecidableEq κ] [DecidableEq α] :
    System (Flights κ α) (FlightLabel κ α) where
  init f := f = {}
  step := Flights.step

/-- Nobody joins a future that is cancelled, no caller that awaits a future is cancelled while
another awaits it, and no leader while anybody awaits its future. -/
def FlightGuard {κ : Type u} {α : Type v} [DecidableEq κ] [DecidableEq α] (f : Flights κ α) :
    FlightLabel κ α → Prop
  | .join key => ∀ l ∈ f.inflight key, f.futures l ≠ .cancelled
  | .cancel i =>
      match (f.calls i).stage with
      | .waiting _ l => f.futures l = .pending → f.Alone l (some i)
      | _ => True
  | .deliver i => f.futures i = .pending → f.Alone i none
  | _ => True

instance {κ : Type u} {α : Type v} [DecidableEq κ] [DecidableEq α] (f : Flights κ α)
    (l : FlightLabel κ α) : Decidable (FlightGuard f l) := by
  unfold FlightGuard
  split
  · infer_instance
  · split <;> infer_instance
  · infer_instance
  · infer_instance

namespace Flights

variable {κ : Type u} {α : Type v} [DecidableEq κ] [DecidableEq α] {f g : Flights κ α}
  {l : FlightLabel κ α}

/-- The table names the leaders and nobody else, and a future is settled by the end of its
computation. -/
structure WellFormed (f : Flights κ α) : Prop where
  fresh : ∀ i, f.next ≤ i → f.calls i = {} ∧ f.futures i = .pending ∧ f.answers i = none
  entry : ∀ key i, f.inflight key = some i ↔ (f.calls i).stage = .leading key
  running : ∀ i key, (f.calls i).stage = .leading key →
    f.answers i = none ∧ ∀ a, f.futures i ≠ .settled a
  waiting : ∀ i key j, (f.calls i).stage = .waiting key j → j < f.next
  /-- a caller awaits a computation for its own key -/
  shared : ∀ i key j, (f.calls i).stage = .waiting key j →
    ∀ key', (f.calls j).stage = .leading key' → key' = key
  settled : ∀ i a, f.futures i = .settled a → f.answers i = some a

/-- Every caller that is not cancelled itself is served. -/
structure Served (f : Flights κ α) : Prop where
  /-- whoever waits, waits for a computation that runs, or has been told its answer -/
  waits : ∀ i key j, (f.calls i).stage = .waiting key j → (f.calls i).cancelRequested = false →
    f.futures j = .pending ∧ (f.calls j).stage = .leading key ∨ ∃ a, f.futures j = .settled a
  /-- a cancelled caller does not wait -/
  told : ∀ i key j, (f.calls i).stage = .waiting key j → (f.calls i).cancelRequested = true →
    f.futures j ≠ .pending
  /-- whoever is through has the answer of the computation -/
  done : ∀ i j a, (f.calls i).stage = .done j a → (f.calls i).cancelRequested = false →
    ∃ x, a = some x ∧ ∀ k ∈ j, f.answers k = some x

omit [DecidableEq κ] [DecidableEq α] in
lemma wellFormed_empty : (({} : Flights κ α)).WellFormed where
  fresh _ _ := ⟨rfl, rfl, rfl⟩
  entry key i := by simp
  running i key h := by simp at h
  waiting i key j h := by simp at h
  shared i key j h := by simp at h
  settled i a h := by simp at h

section Calls

variable {i j : ℕ} {c : FlightCall κ α} {x : FlightStage κ α}

omit [DecidableEq κ] [DecidableEq α]

lemma calls_setCall : (f.setCall i c).calls i = c := Function.update_self ..

lemma calls_setCall_of_ne (h : j ≠ i) : (f.setCall i c).calls j = f.calls j :=
  Function.update_of_ne h ..

lemma WellFormed.lt_next (hw : f.WellFormed) (h : (f.calls i).stage ≠ .absent) : i < f.next := by
  by_contra hi
  rw [(hw.fresh i (not_lt.mp hi)).1] at h
  exact h rfl

/-- A caller that changes its call, but neither starts nor ends to lead. -/
lemma WellFormed.setCall (hw : f.WellFormed) (hi : (f.calls i).stage ≠ .absent)
    (hlead : ∀ key, c.stage = .leading key ↔ (f.calls i).stage = .leading key)
    (hwait : ∀ key l, c.stage = .waiting key l → (f.calls i).stage = .waiting key l) :
    (f.setCall i c).WellFormed := by
  have hlt := hw.lt_next hi
  have hleading : ∀ j key, ((f.setCall i c).calls j).stage = .leading key ↔
      (f.calls j).stage = .leading key := by
    intro j key
    by_cases hj : j = i
    · subst hj
      rw [calls_setCall, hlead]
    · rw [calls_setCall_of_ne hj]
  have hwaiting : ∀ j key l, ((f.setCall i c).calls j).stage = .waiting key l →
      (f.calls j).stage = .waiting key l := by
    intro j key l h
    by_cases hj : j = i
    · subst hj
      rw [calls_setCall] at h
      exact hwait key l h
    · rwa [calls_setCall_of_ne hj] at h
  refine ⟨fun j hj => ?_, fun key j => ?_, fun j key h => ?_, fun j key l h => ?_,
    fun j key l h key' h' => ?_, hw.settled⟩
  · have hj : f.next ≤ j := hj
    rw [calls_setCall_of_ne (by omega)]
    exact hw.fresh j hj
  · rw [hleading]
    exact hw.entry key j
  · exact hw.running j key ((hleading j key).mp h)
  · exact hw.waiting j key l (hwaiting j key l h)
  · exact hw.shared j key l (hwaiting j key l h) key' ((hleading l key').mp h')

/-- A new call that does not lead; it waits for the leader of its key, if for anybody. -/
lemma WellFormed.enter (hw : f.WellFormed) (hlead : ∀ key, x ≠ .leading key)
    (hwait : ∀ key l, x = .waiting key l → f.inflight key = some l) : (f.enter x).WellFormed := by
  have hnew : ((f.enter x).calls f.next) = { stage := x } := calls_setCall
  have hold : ∀ {j}, j ≠ f.next → (f.enter x).calls j = f.calls j := calls_setCall_of_ne
  have hnone := (hw.fresh f.next le_rfl).1
  refine ⟨fun j hj => ?_, fun key j => ?_, fun j key h => ?_, fun j key l h => ?_,
    fun j key l h key' h' => ?_, hw.settled⟩
  · have hj : f.next + 1 ≤ j := hj
    rw [hold (by omega)]
    exact hw.fresh j (by omega)
  · show f.inflight key = some j ↔ _
    rw [hw.entry]
    by_cases hj : j = f.next
    · subst hj
      rw [hnew, hnone]
      exact ⟨fun h => (by cases h), fun h => absurd h (hlead key)⟩
    · rw [hold hj]
  · by_cases hj : j = f.next
    · subst hj
      rw [hnew] at h
      exact absurd h (hlead key)
    · rw [hold hj] at h
      exact hw.running j key h
  · refine Nat.lt_succ_of_lt ?_
    by_cases hj : j = f.next
    · subst hj
      rw [hnew] at h
      have hl := (hw.entry key l).mp (hwait key l h)
      exact hw.lt_next fun h => by
        rw [hl] at h
        cases h
    · rw [hold hj] at h
      exact hw.waiting j key l h
  · by_cases hl : l = f.next
    · subst hl
      rw [hnew] at h'
      exact absurd h' (hlead key')
    rw [hold hl] at h'
    by_cases hj : j = f.next
    · subst hj
      rw [hnew] at h
      rw [(hw.entry key l).mp (hwait key l h)] at h'
      cases h'
      rfl
    · rw [hold hj] at h
      exact hw.shared j key l h key' h'

end Calls

section Keys

variable {key : κ}

omit [DecidableEq α]

/-- A new leader. -/
lemma WellFormed.lead (hw : f.WellFormed) (hkey : f.inflight key = none) :
    (f.lead key).WellFormed := by
  have hnew : (f.lead key).calls f.next = { stage := .leading key } := calls_setCall
  have hold : ∀ {j}, j ≠ f.next → (f.lead key).calls j = f.calls j := calls_setCall_of_ne
  obtain ⟨hnone, hpending, hunanswered⟩ := hw.fresh f.next le_rfl
  refine ⟨fun j hj => ?_, fun key' j => ?_, fun j key' h => ?_, fun j key' l h => ?_,
    fun j key' l h key'' h' => ?_, hw.settled⟩
  · have hj : f.next + 1 ≤ j := hj
    rw [hold (by omega)]
    exact hw.fresh j (by omega)
  · show Function.update f.inflight key (some f.next) key' = some j ↔ _
    by_cases hk : key' = key
    · subst hk
      rw [Function.update_self, Option.some.injEq]
      by_cases hj : j = f.next
      · subst hj
        rw [hnew]
        exact ⟨fun _ => rfl, fun _ => rfl⟩
      · rw [hold hj, ← hw.entry, hkey]
        exact ⟨fun h => absurd h.symm hj, fun h => (by cases h)⟩
    · rw [Function.update_of_ne hk, hw.entry]
      by_cases hj : j = f.next
      · subst hj
        rw [hnew, hnone]
        exact ⟨fun h => (by cases h), fun h => absurd (FlightStage.leading.inj h).symm hk⟩
      · rw [hold hj]
  · by_cases hj : j = f.next
    · subst hj
      refine ⟨hunanswered, fun a h => ?_⟩
      have h : f.futures f.next = .settled a := h
      rw [hpending] at h
      cases h
    · rw [hold hj] at h
      exact hw.running j key' h
  · by_cases hj : j = f.next
    · subst hj
      rw [hnew] at h
      cases h
    · rw [hold hj] at h
      exact Nat.lt_succ_of_lt (hw.waiting j key' l h)
  · by_cases hj : j = f.next
    · subst hj
      rw [hnew] at h
      cases h
    · rw [hold hj] at h
      have hl := hw.waiting j key' l h
      rw [hold (by omega)] at h'
      exact hw.shared j key' l h key'' h'

variable {i : ℕ}

/-- A leader leaves. -/
lemma WellFormed.leave (hw : f.WellFormed) (hi : (f.calls i).stage = .leading key)
    (a : Option α) : (f.leave i key a).WellFormed := by
  have hnew : ((f.leave i key a).calls i).stage = .done (some i) a := by
    show ((f.setStage i (.done (some i) a)).calls i).stage = _
    rw [Flights.setStage, calls_setCall]
  have hold : ∀ {j}, j ≠ i → (f.leave i key a).calls j = f.calls j := calls_setCall_of_ne
  have hlt : i < f.next := hw.lt_next fun h => by
    rw [hi] at h
    cases h
  have hne : ∀ {j}, ((f.leave i key a).calls j).stage ≠ .done (some i) a → j ≠ i := by
    rintro j hj rfl
    exact hj hnew
  refine ⟨fun j hj => ?_, fun key' j => ?_, fun j key' h => ?_, fun j key' l h => ?_,
    fun j key' l h key'' h' => ?_, hw.settled⟩
  · have hj : f.next ≤ j := hj
    rw [hold (by omega)]
    exact hw.fresh j hj
  · show Function.update f.inflight key none key' = some j ↔ _
    by_cases hj : j = i
    · subst hj
      rw [hnew]
      refine ⟨fun h => ?_, fun h => (by cases h)⟩
      by_cases hk : key' = key
      · rw [hk, Function.update_self] at h
        cases h
      · rw [Function.update_of_ne hk, hw.entry, hi] at h
        exact absurd (FlightStage.leading.inj h).symm hk
    · rw [hold hj]
      by_cases hk : key' = key
      · subst hk
        rw [Function.update_self, ← hw.entry, (hw.entry _ i).mpr hi, Option.some.injEq]
        exact ⟨fun h => (by cases h), fun h => absurd h.symm hj⟩
      · rw [Function.update_of_ne hk, hw.entry]
  · have hj : j ≠ i := hne (by rw [h]; exact fun h => (by cases h))
    rw [hold hj] at h
    exact hw.running j key' h
  · have hj : j ≠ i := hne (by rw [h]; exact fun h => (by cases h))
    rw [hold hj] at h
    exact hw.waiting j key' l h
  · have hj : j ≠ i := hne (by rw [h]; exact fun h => (by cases h))
    have hl : l ≠ i := hne (by rw [h']; exact fun h => (by cases h))
    rw [hold hj] at h
    rw [hold hl] at h'
    exact hw.shared j key' l h key'' h'

end Keys

section Futures

variable {i : ℕ}

omit [DecidableEq κ]

/-- The future of a caller that does not lead any more is settled. -/
lemma WellFormed.settle (hw : f.WellFormed) (hi : i < f.next)
    (hlead : ∀ key, (f.calls i).stage ≠ .leading key) (hfut : ∀ a, f.futures i ≠ .settled a)
    (a : α) : (f.settle i a).WellFormed := by
  have hfutures : ∀ {j}, j ≠ i → (f.settle i a).futures j = f.futures j := fun hj => by
    show (if f.futures i = .pending then Function.update f.futures i (.settled a)
      else f.futures) _ = _
    split
    · exact Function.update_of_ne hj ..
    · rfl
  have hanswers : ∀ {j}, j ≠ i → (f.settle i a).answers j = f.answers j := fun hj =>
    Function.update_of_ne hj ..
  refine ⟨fun j hj => ?_, hw.entry, fun j key h => ?_, hw.waiting, hw.shared, fun j b h => ?_⟩
  · have hj : f.next ≤ j := hj
    rw [hfutures (by omega), hanswers (by omega)]
    exact hw.fresh j hj
  · have hj : j ≠ i := fun hj => hlead key (hj ▸ h)
    rw [hanswers hj, hfutures hj]
    exact hw.running j key h
  · by_cases hj : j = i
    · subst hj
      show Function.update f.answers j (some a) j = some b
      have h : (if f.futures j = .pending then Function.update f.futures j (.settled a)
        else f.futures) j = .settled b := h
      split at h
      · rw [Function.update_self] at h
        cases h
        exact Function.update_self ..
      · exact absurd h (hfut b)
    · rw [hfutures hj] at h
      rw [hanswers hj]
      exact hw.settled j b h

/-- A future is cancelled. -/
lemma WellFormed.cancelFuture (hw : f.WellFormed) (hi : i < f.next) :
    (f.cancelFuture i).WellFormed := by
  have hfutures : ∀ {j}, j ≠ i → (f.cancelFuture i).futures j = f.futures j := fun hj => by
    show (if f.futures i = .pending then Function.update f.futures i .cancelled
      else f.futures) _ = _
    split
    · exact Function.update_of_ne hj ..
    · rfl
  have hsettled : ∀ {j b}, (f.cancelFuture i).futures j = .settled b → f.futures j = .settled b := by
    intro j b h
    by_cases hj : j = i
    · subst hj
      have h : (if f.futures j = .pending then Function.update f.futures j .cancelled
        else f.futures) j = .settled b := h
      split at h
      · rw [Function.update_self] at h
        cases h
      · exact h
    · rwa [hfutures hj] at h
  refine ⟨fun j hj => ?_, hw.entry, fun j key h => ?_, hw.waiting, hw.shared,
    fun j b h => hw.settled j b (hsettled h)⟩
  · have hj : f.next ≤ j := hj
    rw [hfutures (by omega)]
    exact hw.fresh j hj
  · obtain ⟨hnone, hfut⟩ := hw.running j key h
    exact ⟨hnone, fun b hb => hfut b (hsettled hb)⟩

end Futures

lemma wellFormed_step (hw : f.WellFormed) (h : f.step l = some g) : g.WellFormed := by
  cases l with
  | hit a =>
      cases h
      exact hw.enter (fun _ h => by cases h) (fun _ _ h => by cases h)
  | join key =>
      rw [step] at h
      split at h
      · rename_i hkey
        cases h
        exact hw.lead hkey
      · rename_i l hkey
        split at h
        · cases h
          refine hw.enter (fun _ h => by cases h) fun key' l' h => ?_
          cases h
          exact hkey
        · cases h
          exact hw.enter (fun _ h => by cases h) (fun _ _ h => by cases h)
        · cases h
          exact hw.enter (fun _ h => by cases h) (fun _ _ h => by cases h)
  | finish i a =>
      rw [step] at h
      split at h
      · rename_i key hkey
        cases h
        have hlt : i < f.next := hw.lt_next fun h => by
          rw [hkey] at h
          cases h
        have hleft : ((f.leave i key (some a)).calls i).stage = .done (some i) (some a) := by
          show ((f.setStage i (.done (some i) (some a))).calls i).stage = _
          rw [setStage, calls_setCall]
        -- it makes no difference that the future is settled first
        exact (hw.leave hkey (some a)).settle hlt (fun key' h => by rw [hleft] at h; cases h)
          (hw.running i key hkey).2 a
      · cases h
  | wake i =>
      rw [step] at h
      split at h
      · rename_i key j hstage
        have hdone : ∀ a, (f.setStage i (.done (some j) a)).WellFormed := fun a =>
          hw.setCall (by rw [hstage]; exact fun h => (by cases h))
            (fun key' => ⟨fun h => (by cases h), fun h => by rw [hstage] at h; cases h⟩)
            (fun _ _ h => by cases h)
        split at h
        · cases h
        · cases h
          exact hdone _
        · cases h
          exact hdone _
      · cases h
  | cancel i =>
      have hrequest : (f.calls i).stage ≠ .absent →
          (f.setCall i { f.calls i with cancelRequested := true }).WellFormed := fun hi =>
        hw.setCall hi (fun _ => Iff.rfl) (fun _ _ h => h)
      rw [step] at h
      split at h
      · rename_i key hstage
        cases h
        exact hrequest (by rw [hstage]; exact fun h => (by cases h))
      · rename_i key j hstage
        cases h
        exact (hrequest (by rw [hstage]; exact fun h => (by cases h))).cancelFuture
          (hw.waiting i key j hstage)
      · cases h
  | deliver i =>
      rw [step] at h
      split at h
      · rename_i key hkey
        obtain ⟨-, h⟩ := Option.ite_none_right_eq_some.mp h
        cases h
        exact hw.leave hkey none
      · cases h

omit [DecidableEq κ] [DecidableEq α] in
lemma served_empty : (({} : Flights κ α)).Served where
  waits i key j h := by simp at h
  told i key j h := by simp at h
  done i j a h := by simp at h

/-! ### Who is served -/

/-- What a caller has of the futures: it is served, unless it is cancelled itself. -/
structure ServedCall (f : Flights κ α) (c : FlightCall κ α) : Prop where
  waits : ∀ key j, c.stage = .waiting key j → c.cancelRequested = false →
    f.futures j = .pending ∧ (f.calls j).stage = .leading key ∨ ∃ a, f.futures j = .settled a
  told : ∀ key j, c.stage = .waiting key j → c.cancelRequested = true → f.futures j ≠ .pending
  done : ∀ j a, c.stage = .done j a → c.cancelRequested = false →
    ∃ x, a = some x ∧ ∀ k ∈ j, f.answers k = some x

/-- Another caller did something: no future was taken back, and who waits for a computation still
does. -/
structure Later (f g : Flights κ α) (c : FlightCall κ α) : Prop where
  futures : ∀ j, f.futures j ≠ .pending → g.futures j = f.futures j
  answers : ∀ k x, f.answers k = some x → g.answers k = some x
  waits : ∀ key j, c.stage = .waiting key j → c.cancelRequested = false → f.futures j = .pending →
    (f.calls j).stage = .leading key →
      g.futures j = .pending ∧ (g.calls j).stage = .leading key ∨ ∃ a, g.futures j = .settled a

section Callers

variable {c : FlightCall κ α} {i : ℕ}

omit [DecidableEq κ] [DecidableEq α]

lemma Served.call (hs : f.Served) (i : ℕ) : f.ServedCall (f.calls i) :=
  ⟨hs.waits i, hs.told i, hs.done i⟩

lemma ServedCall.later (hc : f.ServedCall c) (hl : f.Later g c) : g.ServedCall c := by
  refine ⟨fun key j h hr => ?_, fun key j h hr => ?_, fun j a h hr => ?_⟩
  · rcases hc.waits key j h hr with ⟨hp, hlead⟩ | ⟨a, ha⟩
    · exact hl.waits key j h hr hp hlead
    · refine Or.inr ⟨a, ?_⟩
      rw [hl.futures j (by rw [ha]; exact fun h => (by cases h)), ha]
  · rw [hl.futures j (hc.told key j h hr)]
    exact hc.told key j h hr
  · obtain ⟨x, hx, hall⟩ := hc.done j a h hr
    exact ⟨x, hx, fun k hk => hl.answers k x (hall k hk)⟩

/-- One caller is served, and the others are not disturbed. -/
lemma Served.update (hs : f.Served) (hcalls : ∀ j, j ≠ i → g.calls j = f.calls j)
    (hself : g.ServedCall (g.calls i)) (hl : ∀ j, j ≠ i → f.Later g (f.calls j)) : g.Served := by
  have hall : ∀ j, g.ServedCall (g.calls j) := by
    intro j
    by_cases hj : j = i
    · exact hj ▸ hself
    · rw [hcalls j hj]
      exact (hs.call j).later (hl j hj)
  exact ⟨fun j => (hall j).waits, fun j => (hall j).told, fun j => (hall j).done⟩

/-- The futures are as they were, and those who lead still do. -/
lemma later_of_futures (hf : g.futures = f.futures) (ha : g.answers = f.answers)
    (hlead : ∀ key j, c.stage = .waiting key j → (f.calls j).stage = .leading key →
      (g.calls j).stage = .leading key) : f.Later g c :=
  ⟨fun j _ => by rw [hf], fun k x h => by rw [ha, h],
    fun key j h _ hp hl => Or.inl ⟨by rw [hf, hp], hlead key j h hl⟩⟩

/-- Nobody waits for a future that its caller is alone with. -/
lemma Alone.ne (hw : f.WellFormed) {l : ℕ} {o : Option ℕ} (ha : f.Alone l o) {j : ℕ}
    (hj : some j ≠ o) {key : κ} {l' : ℕ} (h : (f.calls j).stage = .waiting key l') : l' ≠ l := by
  rintro rfl
  have hlt : j < f.next := hw.lt_next fun ha => by
    rw [h] at ha
    cases ha
  have hno := ha j hlt hj
  rw [h] at hno
  exact absurd rfl (of_decide_eq_false hno)

/-- A new call leaves the others served. -/
lemma Served.enter (hw : f.WellFormed) (hs : f.Served) {x : FlightStage κ α}
    (hself : (f.enter x).ServedCall { stage := x }) : (f.enter x).Served := by
  have hold : ∀ j, j ≠ f.next → (f.enter x).calls j = f.calls j := fun _ => calls_setCall_of_ne
  refine hs.update hold ?_ fun j _ => later_of_futures rfl rfl fun key l _ h => ?_
  · show (f.enter x).ServedCall ((f.setCall f.next { stage := x }).calls f.next)
    rw [calls_setCall]
    exact hself
  · have hl : l < f.next := hw.lt_next fun ha => by
      rw [h] at ha
      cases ha
    rw [hold l (by omega)]
    exact h

/-- So does a change of a caller that does not lead. -/
lemma Served.setCall (hs : f.Served)
    (hlead : ∀ key, (f.calls i).stage = .leading key → c.stage = .leading key)
    (hself : (f.setCall i c).ServedCall c) : (f.setCall i c).Served := by
  refine hs.update (fun _ => calls_setCall_of_ne) ?_ fun j _ =>
    later_of_futures rfl rfl fun key l _ h => ?_
  · rw [calls_setCall]
    exact hself
  · by_cases hl : l = i
    · subst hl
      rw [calls_setCall]
      exact hlead key h
    · rw [calls_setCall_of_ne hl]
      exact h

end Callers

/-- The end of a computation serves those who wait for it. -/
lemma Served.finish {i : ℕ} {key : κ} (hw : f.WellFormed) (hs : f.Served)
    (hkey : (f.calls i).stage = .leading key) (a : α) :
    ((f.settle i a).leave i key (some a)).Served := by
  obtain ⟨hunanswered, -⟩ := hw.running i key hkey
  have hold : ∀ j, j ≠ i → ((f.settle i a).leave i key (some a)).calls j = f.calls j := fun _ =>
    calls_setCall_of_ne
  have hfutures : ∀ j, f.futures j ≠ .pending → (f.settle i a).futures j = f.futures j := by
    intro j hj
    show (if f.futures i = .pending then Function.update f.futures i (.settled a)
      else f.futures) j = _
    split
    · rename_i hi
      exact Function.update_of_ne (fun h : j = i => hj (h ▸ hi)) ..
    · rfl
  refine hs.update hold ?_ fun j _ => ⟨hfutures, fun k x h => ?_, fun key' l _ _ hp hl => ?_⟩
  · have hnew : ((f.settle i a).leave i key (some a)).calls i
        = { f.calls i with stage := .done (some i) (some a) } := calls_setCall
    rw [hnew]
    refine ⟨fun _ _ h => (by cases h), fun _ _ h => (by cases h), fun j b h _ => ?_⟩
    cases h
    refine ⟨a, rfl, fun k hk => ?_⟩
    cases hk
    exact Function.update_self ..
  · show Function.update f.answers i (some a) k = some x
    rw [Function.update_of_ne, h]
    rintro rfl
    rw [hunanswered] at h
    cases h
  · by_cases hi : l = i
    · subst hi
      refine Or.inr ⟨a, ?_⟩
      show (if f.futures l = .pending then Function.update f.futures l (.settled a)
        else f.futures) l = _
      rw [if_pos hp, Function.update_self]
    · refine Or.inl ⟨?_, by rw [hold l hi, hl]⟩
      show (if f.futures i = .pending then Function.update f.futures i (.settled a)
        else f.futures) l = _
      split
      · rw [Function.update_of_ne hi, hp]
      · exact hp

omit [DecidableEq κ] in
/-- Who cancels a future that it awaits alone takes it from nobody. -/
lemma Served.cancelFuture {i l : ℕ} {key : κ} (hw : f.WellFormed) (hs : f.Served)
    (hstage : (f.calls i).stage = .waiting key l)
    (halone : f.futures l = .pending → f.Alone l (some i)) :
    ((f.setCall i { f.calls i with cancelRequested := true }).cancelFuture l).Served := by
  have hfutures : ∀ j, f.futures j ≠ .pending ∨ j ≠ l → (if f.futures l = .pending then
      Function.update f.futures l .cancelled else f.futures) j = f.futures j := by
    intro j hj
    split
    · rename_i hl
      refine Function.update_of_ne (fun h => ?_) ..
      subst h
      exact hj.elim (fun h => h hl) fun h => h rfl
    · rfl
  refine hs.update (i := i) (fun _ => calls_setCall_of_ne) ?_ fun j hj =>
    ⟨fun k hk => hfutures k (Or.inl hk), fun _ _ h => h, fun key' l' h _ hp hlead => ?_⟩
  · have hnew : ((f.setCall i { f.calls i with cancelRequested := true }).cancelFuture l).calls i
        = { f.calls i with cancelRequested := true } := calls_setCall
    rw [hnew]
    refine ⟨fun _ _ _ h => (by cases h), fun key' j h _ hp => ?_, fun _ _ _ h => (by cases h)⟩
    have h : (f.calls i).stage = .waiting key' j := h
    rw [hstage] at h
    cases h
    have hp : (if f.futures l = .pending then
      Function.update f.futures l .cancelled else f.futures) l = .pending := hp
    split at hp
    · rw [Function.update_self] at hp
      cases hp
    · rename_i hl
      exact hl hp
  · have hne : l' ≠ l := by
      rintro rfl
      exact (halone hp).ne hw (fun h => hj (Option.some.inj h)) h rfl
    refine Or.inl ⟨(hfutures l' (Or.inr hne)).trans hp, ?_⟩
    show ((f.setCall i { f.calls i with cancelRequested := true }).calls l').stage = _
    by_cases hi : l' = i
    · subst hi
      rw [calls_setCall]
      exact hlead
    · rw [calls_setCall_of_ne hi]
      exact hlead

omit [DecidableEq α] in
/-- A cancelled leader leaves nobody behind whose future is pending, if nobody awaits it. -/
lemma Served.leave {i : ℕ} {key : κ} (hw : f.WellFormed) (hs : f.Served)
    (hcancel : (f.calls i).cancelRequested = true)
    (halone : f.futures i = .pending → f.Alone i none) : (f.leave i key none).Served := by
  have hold : ∀ j, j ≠ i → (f.leave i key none).calls j = f.calls j := fun _ =>
    calls_setCall_of_ne
  refine hs.update hold ?_ fun j _ =>
    ⟨fun _ _ => rfl, fun _ _ h => h, fun key' l h _ hp hlead => ?_⟩
  · have hnew : (f.leave i key none).calls i
        = { f.calls i with stage := .done (some i) none } := calls_setCall
    rw [hnew]
    refine ⟨fun _ _ h => (by cases h), fun _ _ h => (by cases h), fun _ _ _ h => ?_⟩
    have h : (f.calls i).cancelRequested = false := h
    rw [hcancel] at h
    cases h
  · have hne : l ≠ i := by
      rintro rfl
      exact (halone hp).ne hw (fun h => by cases h) h rfl
    exact Or.inl ⟨hp, by rw [hold l hne, hlead]⟩

/-- Under the guard, a step of one caller leaves the others served. -/
lemma served_step (hw : f.WellFormed) (hs : f.Served) (hg : FlightGuard f l)
    (h : f.step l = some g) : g.Served := by
  cases l with
  | hit a =>
      cases h
      refine hs.enter hw ⟨fun _ _ h => (by cases h), fun _ _ h => (by cases h), fun j b h _ => ?_⟩
      cases h
      exact ⟨a, rfl, fun k hk => (by cases hk)⟩
  | join key =>
      rw [step] at h
      split at h
      · cases h
        have hnew : (f.enter (.leading key)).Served := hs.enter hw
          ⟨fun _ _ h => (by cases h), fun _ _ h => (by cases h), fun _ _ h => (by cases h)⟩
        exact ⟨hnew.waits, hnew.told, hnew.done⟩
      · rename_i l hkey
        split at h
        · rename_i hl
          cases h
          have hlead := (hw.entry key l).mp hkey
          have hlt : l < f.next := hw.lt_next fun ha => by
            rw [hlead] at ha
            cases ha
          refine hs.enter hw ⟨fun key' j h _ => ?_, fun _ _ _ h => (by cases h),
            fun _ _ h => (by cases h)⟩
          cases h
          refine Or.inl ⟨hl, ?_⟩
          show ((f.setCall f.next _).calls l).stage = _
          rw [calls_setCall_of_ne (by omega), hlead]
        · rename_i a hl
          cases h
          refine hs.enter hw ⟨fun _ _ h => (by cases h), fun _ _ h => (by cases h),
            fun j b h _ => ?_⟩
          cases h
          refine ⟨a, rfl, fun k hk => ?_⟩
          cases hk
          exact hw.settled l a hl
        · rename_i hl
          exact absurd hl (hg l hkey)
  | finish i a =>
      rw [step] at h
      split at h
      · rename_i key hkey
        cases h
        exact hs.finish hw hkey a
      · cases h
  | wake i =>
      rw [step] at h
      split at h
      · rename_i key l hstage
        have hlead : ∀ {x : FlightStage κ α} key', (f.calls i).stage = .leading key' →
            x = .leading key' := fun key' h => by
          rw [hstage] at h
          cases h
        split at h
        · cases h
        · rename_i a hl
          cases h
          refine hs.setCall (fun key' h => hlead key' h)
            ⟨fun _ _ h => (by cases h), fun _ _ h => (by cases h), fun j b h hr => ?_⟩
          have hr : (f.calls i).cancelRequested = false := hr
          rw [hr] at h
          cases h
          refine ⟨a, rfl, fun k hk => ?_⟩
          cases hk
          exact hw.settled l a hl
        · rename_i hl
          cases h
          refine hs.setCall (fun key' h => hlead key' h)
            ⟨fun _ _ h => (by cases h), fun _ _ h => (by cases h), fun j b h hr => ?_⟩
          rcases hs.waits i key l hstage hr with ⟨hp, -⟩ | ⟨a, ha⟩
          · rw [hl] at hp
            cases hp
          · rw [hl] at ha
            cases ha
      · cases h
  | cancel i =>
      rw [step] at h
      split at h
      · rename_i key hstage
        cases h
        refine hs.setCall (fun _ h => h) ⟨fun _ _ _ h => (by cases h), fun key' j h _ => ?_,
          fun _ _ _ h => (by cases h)⟩
        have h : (f.calls i).stage = .waiting key' j := h
        rw [hstage] at h
        cases h
      · rename_i key l hstage
        cases h
        rw [FlightGuard, hstage] at hg
        exact hs.cancelFuture hw hstage hg
      · cases h
  | deliver i =>
      rw [step] at h
      split at h
      · obtain ⟨hcancel, h⟩ := Option.ite_none_right_eq_some.mp h
        cases h
        exact hs.leave hw hcancel hg
      · cases h

/-- Along every run. -/
lemma wellFormed_of_reachable {ok : Flights κ α → FlightLabel κ α → Prop}
    (h : (flightSystem κ α).ReachableVia ok f) : f.WellFormed := by
  refine h.invariant ?_ ?_
  · rintro f rfl
    exact wellFormed_empty
  · intro f l g hw _ hs
    exact wellFormed_step hw hs

/-- Along every run that meets the guard, nobody suffers from the cancellation of another. -/
theorem served_of_reachable (h : (flightSystem κ α).ReachableVia FlightGuard f) : f.Served := by
  refine h.invariant_of (fun _ => wellFormed_of_reachable) ?_ ?_
  · rintro f rfl
    exact served_empty
  · intro f l g hw hs hg hst
    exact served_step hw hs hg hst

end Flights

end GgRelay
