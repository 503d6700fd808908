import GgRelay.Lib.System
import GgRelay.Session.Hitl.Coordinator

/-!
The coordinator together with the coroutines that wait in it: a call of `request_with_reason`
registers an entry, waits for the entry's future, and removes the entry when it is woken, or when
its task has been cancelled.

No body under the lock awaits anything, so the lock is never contended and taking it does not
suspend: a woken waiter cleans up in the step in which it is woken. What can come in between is
everything from the completion of a future, or its cancellation, to the wake-up of its waiter.

* `State.Valid` is the invariant: entries and waiting calls correspond, and a future is completed by
  exactly one operation;
* `coordinator_exactly_once` sums up what a request may rely on.
-/

namespace GgRelay.Hitl.Waiters

/-- The future of a request. -/
inductive Fut where
  | pending
  | done (v : Verdict)
  | cancelled
  deriving DecidableEq, Repr

/-- Where a call stands; `mustCancel` when its task was cancelled after its future was done. -/
inductive Phase where
  | waiting (mustCancel : Bool)
  | returned (v : Verdict)
  | cancelled
  deriving DecidableEq, Repr

/-- An accepted call of `request_with_reason`, with its future. -/
structure Call where
  reqId : ReqId
  sessionId : String
  future : Fut := .pending
  phase : Phase := .waiting false
  deriving DecidableEq, Repr

/-- The call has not come to its end. -/
def Call.Waits (k : Call) : Prop := ∃ b, k.phase = .waiting b

/-- The call waits, undecided or decided, or has returned. -/
def Call.Undisturbed (k : Call) : Prop :=
  k.future ≠ .cancelled ∧ (k.phase = .waiting false ∨ ∃ v, k.phase = .returned v)

/-- `task.cancel()`, as far as the call is concerned. -/
def Call.cancel (k : Call) : Call :=
  match k.phase, k.future with
  | .waiting _, .pending => { k with future := .cancelled }
  | .waiting _, _ => { k with phase := .waiting true }
  | _, _ => k

/-- How a woken call ends. -/
def Call.ends (k : Call) : Option Phase :=
  match k.phase, k.future with
  | .waiting _, .cancelled => some .cancelled
  | .waiting true, .done _ => some .cancelled
  | .waiting false, .done v => some (.returned v)
  | _, _ => none

/-- `_PendingEntry`; the future is that of the call that registered it. -/
structure Entry where
  tool : String
  args : Args
  sessionId : String
  call : ℕ
  deriving DecidableEq, Repr

/-- The table, the calls accepted so far, and which of them `resolve` and `cancel_all` have decided,
in the order in which they did. -/
structure State where
  pending : Dict ReqId Entry := ∅
  calls : List Call := []
  effects : List (ℕ × Verdict) := []

namespace State

variable (s : State)

/-- The future of a call. -/
def future (i : ℕ) : Option Fut := s.calls[i]?.map Call.future

/-- `future.set_result`. -/
def complete (i : ℕ) (v : Verdict) : State where
  pending := s.pending
  calls := s.calls.modify i fun k => { k with future := .done v }
  effects := s.effects ++ [(i, v)]

/-- The registering half of `request_with_reason`. -/
def request (rid : ReqId) (tool : String) (args : Args) (sessionId : String) :
    Except AlreadyPending State :=
  if rid ∈ s.pending then .error ⟨rid⟩
  else .ok { s with
    pending := s.pending.insert rid ⟨tool, args, sessionId, s.calls.length⟩
    calls := s.calls ++ [{ reqId := rid, sessionId }] }

/-- `resolve`, without a store. -/
def resolve (rid : ReqId) (v : Verdict) : Except NotPending State :=
  match s.pending.lookup rid with
  | none => .error ⟨rid⟩
  | some e => if s.future e.call = some .pending then .ok (s.complete e.call v) else .error ⟨rid⟩

/-- The filter of `cancel_all`. -/
def inScope (scope : Option String) (e : Entry) : Bool :=
  s.future e.call = some .pending && scope.all (e.sessionId == ·)

/-- One turn of the loop of `cancel_all`. -/
def cancelEntry (reason : String) (scope : Option String) (s : State) (e : Entry) : State :=
  if s.inScope scope e then s.complete e.call { decision := .deny, reason := some reason } else s

/-- `cancel_all`, over the entries in the order of their registration. -/
def cancelAll (reason : String) (scope : Option String) : State :=
  (s.pending.entries.reverse.map Sigma.snd).foldl (cancelEntry reason scope) s

/-- `task.cancel()` on the task of a call: its future is cancelled, or, if that is done, the task
will be when it is woken. -/
def cancelWaiter (i : ℕ) : State :=
  { s with calls := s.calls.modify i Call.cancel }

/-- A waiter is woken: it leaves the `await`, removes its entry, and returns or raises. -/
def wake (i : ℕ) : Option State :=
  s.calls[i]?.bind fun k => (Call.ends k).map fun phase =>
    { s with
      pending := s.pending.erase k.reqId
      calls := s.calls.modify i fun k => { k with phase } }

/-- What happens to a coordinator. -/
inductive Move
  | request (rid : ReqId) (tool : String) (args : Args) (sessionId : String)
  | resolve (rid : ReqId) (v : Verdict)
  | cancelAll (reason : String) (scope : Option String)
  | cancelWaiter (i : ℕ)
  | wake (i : ℕ)

/-- One step; an operation that raises leaves everything as it was. -/
def step : Move → Option State
  | .request rid tool args sid => some ((s.request rid tool args sid).toOption.getD s)
  | .resolve rid v => some ((s.resolve rid v).toOption.getD s)
  | .cancelAll reason scope => some (s.cancelAll reason scope)
  | .cancelWaiter i => some (s.cancelWaiter i)
  | .wake i => s.wake i

/-- A coordinator and its waiters. -/
def system : System State Move where
  init s := s = {}
  step := step

variable {s} {i : ℕ} {k : Call} {v : Verdict} {rid : ReqId} {e : Entry}

/-! ### Calls and their futures -/

lemma future_eq_some_iff {f : Fut} :
    s.future i = some f ↔ ∃ k, s.calls[i]? = some k ∧ k.future = f :=
  Option.map_eq_some_iff

lemma getElem?_complete (j : ℕ) : (s.complete i v).calls[j]?
    = s.calls[j]?.map fun k => if i = j then { k with future := .done v } else k := by
  rw [complete, List.getElem?_modify]
  rfl

lemma future_complete (hi : s.future i = some .pending) (j : ℕ) :
    (s.complete i v).future j = if i = j then some (.done v) else s.future j := by
  obtain ⟨k, hk, -⟩ := future_eq_some_iff.mp hi
  rw [future, getElem?_complete, Option.map_map]
  by_cases hj : i = j
  · subst hj
    simp [hk]
  · simp [hj, future, Function.comp_def]

/-- The invariant: the entries are those of the waiting calls, and the futures that are done are
those that have been decided, each once. -/
structure Valid (s : State) : Prop where
  entry : ∀ rid e, s.pending.lookup rid = some e → ∃ k, s.calls[e.call]? = some k ∧ k.reqId = rid
    ∧ k.sessionId = e.sessionId ∧ k.Waits
  waiting : ∀ (i : ℕ) (k : Call), s.calls[i]? = some k → k.Waits →
    ∃ e, s.pending.lookup k.reqId = some e ∧ e.call = i
  once : (s.effects.map Prod.fst).Nodup
  effect_iff : ∀ i v, (i, v) ∈ s.effects ↔ s.future i = some (.done v)
  returned : ∀ (i : ℕ) (k : Call) (v : Verdict), s.calls[i]? = some k → k.phase = .returned v → k.future = .done v

lemma valid_empty : Valid {} where
  entry _ _ h := absurd h (by simp)
  waiting _ _ h := absurd h (by simp)
  once := List.nodup_nil
  effect_iff _ _ := by simp [future]
  returned _ _ _ h := absurd h (by simp)

/-- A call that is undecided has not come to its end. -/
lemma Valid.not_mem_effects (h : Valid s) (hi : s.future i = some .pending) :
    i ∉ s.effects.map Prod.fst := by
  intro hmem
  obtain ⟨⟨j, v⟩, hv, rfl⟩ := List.mem_map.mp hmem
  rw [h.effect_iff, hi] at hv
  exact absurd hv (by simp)

lemma Valid.complete (h : Valid s) (hi : s.future i = some .pending) (v : Verdict) :
    Valid (s.complete i v) := by
  have hcalls : ∀ j k, (s.complete i v).calls[j]? = some k → ∃ k₀, s.calls[j]? = some k₀
      ∧ k.reqId = k₀.reqId ∧ k.sessionId = k₀.sessionId ∧ k.phase = k₀.phase
      ∧ k.future = if i = j then .done v else k₀.future := by
    intro j k hk
    rw [getElem?_complete] at hk
    obtain ⟨k₀, hk₀, rfl⟩ := Option.map_eq_some_iff.mp hk
    refine ⟨k₀, hk₀, ?_⟩
    split <;> exact ⟨rfl, rfl, rfl, rfl⟩
  refine ⟨fun rid e he => ?_, fun j k hk hw => ?_, ?_, fun j u => ?_, fun j k u hk hret => ?_⟩
  · obtain ⟨k, hk, hrid, hsid, hw⟩ := h.entry rid e he
    refine ⟨_, by rw [getElem?_complete, hk]; rfl, ?_⟩
    split <;> exact ⟨hrid, hsid, hw⟩
  · obtain ⟨k₀, hk₀, hrid, -, hphase, -⟩ := hcalls j k hk
    rw [hrid]
    exact h.waiting j k₀ hk₀ (by rwa [Call.Waits, ← hphase])
  · have heffects : (s.complete i v).effects.map Prod.fst = s.effects.map Prod.fst ++ [i] := by
      rw [State.complete, List.map_append]
      rfl
    rw [heffects]
    exact h.once.append (List.nodup_singleton i)
      (List.disjoint_singleton.mpr (h.not_mem_effects hi))
  · have heffects : (j, u) ∈ (s.complete i v).effects ↔ (j, u) ∈ s.effects ∨ j = i ∧ u = v := by
      rw [State.complete, List.mem_append, List.mem_singleton, Prod.mk.injEq]
    rw [heffects, future_complete hi, h.effect_iff]
    by_cases hj : i = j
    · subst hj
      simp [hi, eq_comm]
    · simp [hj, Ne.symm hj]
  · obtain ⟨k₀, hk₀, -, -, hphase, hfut⟩ := hcalls j k hk
    have hdone := h.returned j k₀ u hk₀ (hphase ▸ hret)
    rw [hfut]
    split
    · rename_i hj
      subst hj
      -- what has returned was decided before
      obtain ⟨k₁, hk₁, hpend⟩ := future_eq_some_iff.mp hi
      rw [hk₀] at hk₁
      obtain rfl := Option.some.inj hk₁
      rw [hdone] at hpend
      exact absurd hpend (by simp)
    · exact hdone

/-! ### What each operation does -/

lemma request_cases (rid : ReqId) (tool : String) (args : Args) (sid : String) (s : State) :
    s.request rid tool args sid = .error ⟨rid⟩ ∧ rid ∈ s.pending
      ∨ rid ∉ s.pending ∧ s.request rid tool args sid = .ok { s with
          pending := s.pending.insert rid ⟨tool, args, sid, s.calls.length⟩
          calls := s.calls ++ [{ reqId := rid, sessionId := sid }] } := by
  unfold request
  split
  · rename_i hmem
    exact .inl ⟨rfl, hmem⟩
  · rename_i hmem
    exact .inr ⟨hmem, rfl⟩

lemma Valid.request (h : Valid s) {tool : String} {args : Args} {sid : String}
    (hnew : rid ∉ s.pending) : Valid { s with
      pending := s.pending.insert rid ⟨tool, args, sid, s.calls.length⟩
      calls := s.calls ++ [{ reqId := rid, sessionId := sid }] } := by
  have hold : ∀ {j : ℕ} {k : Call}, s.calls[j]? = some k →
      (s.calls ++ [({ reqId := rid, sessionId := sid } : Call)])[j]? = some k := fun hk => by
    rw [List.getElem?_append_left (List.getElem?_eq_some_iff.mp hk).1, hk]
  have hcases : ∀ {j : ℕ} {k : Call},
      (s.calls ++ [({ reqId := rid, sessionId := sid } : Call)])[j]? = some k →
        s.calls[j]? = some k ∨ j = s.calls.length ∧ k = { reqId := rid, sessionId := sid } := by
    intro j k hk
    rcases lt_or_ge j s.calls.length with hlt | hge
    · exact .inl (by rwa [List.getElem?_append_left hlt] at hk)
    · rw [List.getElem?_append_right hge, List.getElem?_singleton] at hk
      split at hk
      · exact .inr ⟨by omega, (Option.some.inj hk).symm⟩
      · simp at hk
  refine ⟨fun r e he => ?_, fun j k hk hw => ?_, h.once, fun j v => ?_, fun j k v hk hret => ?_⟩
  · by_cases hr : r = rid
    · subst hr
      rw [AList.lookup_insert] at he
      obtain rfl := Option.some.inj he
      exact ⟨_, List.getElem?_concat_length, rfl, rfl, false, rfl⟩
    · rw [AList.lookup_insert_ne hr] at he
      obtain ⟨k, hk, hrest⟩ := h.entry r e he
      exact ⟨k, hold hk, hrest⟩
  · rcases hcases hk with hk | ⟨rfl, rfl⟩
    · obtain ⟨e, he, hcall⟩ := h.waiting j k hk hw
      have hne : k.reqId ≠ rid := by
        rintro rfl
        exact hnew (AList.lookup_isSome.mp (by rw [he]; rfl))
      exact ⟨e, (AList.lookup_insert_ne hne).trans he, hcall⟩
    · exact ⟨_, AList.lookup_insert _, rfl⟩
  · rw [h.effect_iff, future_eq_some_iff, future_eq_some_iff]
    constructor
    · rintro ⟨k, hk, hf⟩
      exact ⟨k, hold hk, hf⟩
    · rintro ⟨k, hk, hf⟩
      rcases hcases hk with hk | ⟨rfl, rfl⟩
      · exact ⟨k, hk, hf⟩
      · exact absurd hf (by simp)
  · rcases hcases hk with hk | ⟨rfl, rfl⟩
    · exact h.returned j k v hk hret
    · exact absurd hret (by simp)

/-- `resolve` decides an undecided request, or raises. -/
lemma resolve_cases (rid : ReqId) (v : Verdict) (s : State) :
    (∃ e, s.pending.lookup rid = some e ∧ s.future e.call = some .pending
        ∧ s.resolve rid v = .ok (s.complete e.call v))
      ∨ s.resolve rid v = .error ⟨rid⟩
        ∧ ∀ e, s.pending.lookup rid = some e → s.future e.call ≠ some .pending := by
  unfold resolve
  cases hlook : s.pending.lookup rid with
  | none => exact .inr ⟨rfl, fun e he => absurd he (by simp)⟩
  | some e =>
      by_cases hf : s.future e.call = some .pending
      · exact .inl ⟨e, rfl, hf, if_pos hf⟩
      · refine .inr ⟨if_neg hf, fun e' he' => ?_⟩
        obtain rfl := Option.some.inj he'
        exact hf

/-- The verdict of `cancel_all`. -/
def denial (reason : String) : Verdict := { decision := .deny, reason := some reason }

/-- What `cancel_all` does over some of the entries: it keeps the table and the calls, and decides
undecided requests of its scope with its denial. -/
structure Cancels (reason : String) (scope : Option String) (s t : State) : Prop where
  valid : Valid t
  pending : t.pending = s.pending
  added : ∃ added, t.effects = s.effects ++ added ∧ ∀ x ∈ added, x.2 = denial reason
    ∧ ∃ k, s.calls[x.1]? = some k ∧ k.future = .pending ∧ ∀ sid ∈ scope, k.sessionId = sid
  calls : ∀ (i : ℕ) (k : Call), t.calls[i]? = some k → ∃ k₀, s.calls[i]? = some k₀
    ∧ k.reqId = k₀.reqId ∧ k.sessionId = k₀.sessionId ∧ k.phase = k₀.phase
    ∧ (k.future = k₀.future ∨ k₀.future = .pending ∧ k.future = .done (denial reason))

lemma Cancels.refl (h : Valid s) (reason : String) (scope : Option String) :
    Cancels reason scope s s where
  valid := h
  pending := rfl
  added := ⟨[], (List.append_nil _).symm, fun _ hx => absurd hx List.not_mem_nil⟩
  calls _ k hk := ⟨k, hk, rfl, rfl, rfl, .inl rfl⟩

/-- One more entry. -/
lemma Cancels.cancelEntry {reason : String} {scope : Option String} {t : State}
    (h : Cancels reason scope s t) (hrid : t.pending.lookup rid = some e) :
    Cancels reason scope s (cancelEntry reason scope t e) := by
  unfold State.cancelEntry
  split
  · rename_i hin
    rw [inScope, Bool.and_eq_true, decide_eq_true_eq] at hin
    obtain ⟨hf, hsid⟩ := hin
    obtain ⟨k, hk, -, hksid, -⟩ := h.valid.entry rid e hrid
    have hpend : k.future = .pending := by
      obtain ⟨k', hk', hf'⟩ := future_eq_some_iff.mp hf
      rw [hk] at hk'
      obtain rfl := Option.some.inj hk'
      exact hf'
    obtain ⟨k₀, hk₀, -, hsame, -, hfut⟩ := h.calls e.call k hk
    have hpend₀ : k₀.future = .pending := by
      rcases hfut with heq | ⟨hp, -⟩
      · rw [← heq, hpend]
      · exact hp
    refine ⟨h.valid.complete hf _, h.pending, ?_, fun j k' hk' => ?_⟩
    · obtain ⟨added, heffects, hadded⟩ := h.added
      refine ⟨added ++ [(e.call, denial reason)], ?_, fun x hx => ?_⟩
      · rw [State.complete, heffects, List.append_assoc]
        rfl
      · rcases List.mem_append.mp hx with hx | hx
        · exact hadded x hx
        · obtain rfl := List.mem_singleton.mp hx
          refine ⟨rfl, k₀, hk₀, hpend₀, fun sid hmem => ?_⟩
          rw [← hsame, hksid]
          rw [Option.mem_def] at hmem
          rw [hmem] at hsid
          simpa using hsid
    · rw [getElem?_complete] at hk'
      obtain ⟨k₁, hk₁, rfl⟩ := Option.map_eq_some_iff.mp hk'
      obtain ⟨k₂, hk₂, hrest⟩ := h.calls j k₁ hk₁
      refine ⟨k₂, hk₂, ?_⟩
      split
      · rename_i hj
        subst hj
        rw [hk₂] at hk₀
        obtain rfl := Option.some.inj hk₀
        exact ⟨hrest.1, hrest.2.1, hrest.2.2.1, .inr ⟨hpend₀, rfl⟩⟩
      · exact hrest
  · exact h

/-- `cancel_all` decides undecided requests of its scope. -/
lemma Valid.cancelAll (h : Valid s) (reason : String) (scope : Option String) :
    Cancels reason scope s (s.cancelAll reason scope) := by
  have hfold : ∀ (es : List Entry) (t : State), Cancels reason scope s t →
      (∀ e ∈ es, ∃ rid, s.pending.lookup rid = some e) →
        Cancels reason scope s (es.foldl (State.cancelEntry reason scope) t) := by
    intro es
    induction es with
    | nil => exact fun t ht _ => ht
    | cons e es ih =>
        intro t ht hes
        obtain ⟨rid, hrid⟩ := hes e List.mem_cons_self
        have hlook : t.pending.lookup rid = some e := by rw [ht.pending, hrid]
        exact ih _ (ht.cancelEntry hlook) fun e' he' => hes e' (List.mem_cons_of_mem _ he')
  refine hfold _ s (.refl h reason scope) fun e he => ?_
  obtain ⟨p, hp, rfl⟩ := List.mem_map.mp he
  exact ⟨p.1, AList.mem_lookup_iff.mpr (List.mem_reverse.mp hp)⟩

/-! ### The end of a call -/

lemma getElem?_cancelWaiter (i j : ℕ) : (s.cancelWaiter i).calls[j]?
    = s.calls[j]?.map fun k => if i = j then Call.cancel k else k := by
  rw [cancelWaiter, List.getElem?_modify]
  rfl

lemma cancel_spec (k : Call) : k.cancel.reqId = k.reqId ∧ k.cancel.sessionId = k.sessionId
    ∧ (k.cancel.Waits ↔ k.Waits)
    ∧ (∀ v, k.cancel.future = .done v ↔ k.future = .done v)
    ∧ ∀ v, k.cancel.phase = .returned v ↔ k.phase = .returned v := by
  obtain ⟨reqId, sessionId, future, phase⟩ := k
  cases phase <;> cases future <;> simp [Call.cancel, Call.Waits]

/-- The calls of a state are those of another, with their keys, ends and decisions. -/
lemma Valid.of_calls (h : Valid s) {calls : List Call} {f : ℕ → Call → Call}
    (hcalls : ∀ j, calls[j]? = s.calls[j]?.map (f j))
    (hkeep : ∀ j k, (f j k).reqId = k.reqId ∧ (f j k).sessionId = k.sessionId
      ∧ ((f j k).Waits ↔ k.Waits) ∧ (∀ v, (f j k).future = .done v ↔ k.future = .done v)
      ∧ ∀ v, (f j k).phase = .returned v ↔ k.phase = .returned v) :
    Valid { s with calls := calls } := by
  have hfuture : ∀ i v, future { s with calls := calls } i = some (.done v)
      ↔ s.future i = some (.done v) := by
    intro i v
    rw [future_eq_some_iff, future_eq_some_iff]
    simp only [hcalls]
    constructor
    · rintro ⟨k, hk, hf⟩
      obtain ⟨k₀, hk₀, rfl⟩ := Option.map_eq_some_iff.mp hk
      exact ⟨k₀, hk₀, ((hkeep i k₀).2.2.2.1 v).mp hf⟩
    · rintro ⟨k, hk, hf⟩
      exact ⟨f i k, by rw [hk, Option.map_some], ((hkeep i k).2.2.2.1 v).mpr hf⟩
  refine ⟨fun rid e he => ?_, fun j k hk hw => ?_, h.once, fun j v => ?_, fun j k v hk hret => ?_⟩
  · obtain ⟨k, hk, hrid, hsid, hw⟩ := h.entry rid e he
    obtain ⟨hr, hs, hwaits, -, -⟩ := hkeep e.call k
    exact ⟨f e.call k, by rw [hcalls, hk, Option.map_some], hr.trans hrid, hs.trans hsid,
      hwaits.mpr hw⟩
  · rw [hcalls] at hk
    obtain ⟨k₀, hk₀, rfl⟩ := Option.map_eq_some_iff.mp hk
    rw [(hkeep j k₀).1]
    exact h.waiting j k₀ hk₀ ((hkeep j k₀).2.2.1.mp hw)
  · rw [hfuture]
    exact h.effect_iff j v
  · rw [hcalls] at hk
    obtain ⟨k₀, hk₀, rfl⟩ := Option.map_eq_some_iff.mp hk
    exact ((hkeep j k₀).2.2.2.1 v).mpr (h.returned j k₀ v hk₀ (((hkeep j k₀).2.2.2.2 v).mp hret))

lemma Valid.cancelWaiter (h : Valid s) (i : ℕ) : Valid (s.cancelWaiter i) := by
  refine h.of_calls (getElem?_cancelWaiter i) fun j k => ?_
  split
  · exact cancel_spec k
  · exact ⟨rfl, rfl, Iff.rfl, fun _ => Iff.rfl, fun _ => Iff.rfl⟩

lemma ends_spec {phase : Phase} (h : k.ends = some phase) :
    k.Waits ∧ (phase = .cancelled ∨ ∃ v, phase = .returned v ∧ k.future = .done v) := by
  obtain ⟨reqId, sessionId, future, p⟩ := k
  unfold Call.ends at h
  split at h
  · cases h
    exact ⟨⟨_, ‹_›⟩, .inl rfl⟩
  · cases h
    exact ⟨⟨_, ‹_›⟩, .inl rfl⟩
  · cases h
    exact ⟨⟨_, ‹_›⟩, .inr ⟨_, rfl, ‹_›⟩⟩
  · simp at h

/-- What a woken call leaves. -/
lemma wake_eq_some_iff {t : State} : s.wake i = some t ↔ ∃ k phase, s.calls[i]? = some k
    ∧ k.ends = some phase ∧ t = { s with
      pending := s.pending.erase k.reqId
      calls := s.calls.modify i fun k => { k with phase } } := by
  rw [wake, Option.bind_eq_some_iff]
  constructor
  · rintro ⟨k, hk, h⟩
    obtain ⟨phase, hphase, rfl⟩ := Option.map_eq_some_iff.mp h
    exact ⟨k, phase, hk, hphase, rfl⟩
  · rintro ⟨k, phase, hk, hphase, rfl⟩
    exact ⟨k, hk, by rw [hphase, Option.map_some]⟩

/-- A call that ends removes its own entry, and no other. -/
lemma Valid.lookup_wake (h : Valid s) {t : State} (hw : s.wake i = some t) (rid : ReqId) (e : Entry) :
    t.pending.lookup rid = some e ↔ s.pending.lookup rid = some e ∧ e.call ≠ i := by
  obtain ⟨k, phase, hk, hends, rfl⟩ := wake_eq_some_iff.mp hw
  obtain ⟨own, hown, hcall⟩ := h.waiting i k hk (ends_spec hends).1
  by_cases hr : rid = k.reqId
  · subst hr
    rw [AList.lookup_erase, hown]
    simp only [reduceCtorEq, false_iff, not_and, not_not]
    intro he
    rw [← Option.some.inj he, hcall]
  · rw [AList.lookup_erase_ne hr]
    constructor
    · intro he
      refine ⟨he, fun hi => hr ?_⟩
      obtain ⟨k', hk', hrid, -⟩ := h.entry rid e he
      rw [hi, hk] at hk'
      rw [Option.some.inj hk', hrid]
    · exact And.left

lemma Valid.wake (h : Valid s) {t : State} (hw : s.wake i = some t) : Valid t := by
  have hlook := h.lookup_wake hw
  obtain ⟨k, phase, hk, hends, rfl⟩ := wake_eq_some_iff.mp hw
  obtain ⟨hwaits, hend⟩ := ends_spec hends
  have hcalls : ∀ j : ℕ, (s.calls.modify i fun k => { k with phase })[j]?
      = s.calls[j]?.map fun k => if i = j then { k with phase } else k := fun j =>
    List.getElem?_modify ..
  have hfuture : ∀ j, future { s with
      pending := s.pending.erase k.reqId
      calls := s.calls.modify i fun k => { k with phase } } j = s.future j := by
    intro j
    simp only [future, hcalls, Option.map_map]
    congr 1
    funext k
    simp only [Function.comp_apply]
    split <;> rfl
  refine ⟨fun rid e he => ?_, fun j k' hk' hw' => ?_, h.once, fun j v => ?_, fun j k' v hk' hret => ?_⟩
  · obtain ⟨he, hne⟩ := (hlook rid e).mp he
    obtain ⟨k', hk', hrest⟩ := h.entry rid e he
    refine ⟨k', ?_, hrest⟩
    simp only [hcalls, hk', Option.map_some, if_neg hne.symm]
  · simp only [hcalls] at hk'
    obtain ⟨k₀, hk₀, rfl⟩ := Option.map_eq_some_iff.mp hk'
    by_cases hj : i = j
    · subst hj
      rw [if_pos rfl] at hw'
      obtain ⟨b, hb⟩ := hw'
      rcases hend with rfl | ⟨v, rfl, -⟩ <;> exact absurd hb (by simp)
    · rw [if_neg hj] at hw' ⊢
      obtain ⟨e, he, hcall⟩ := h.waiting j k₀ hk₀ hw'
      exact ⟨e, (hlook k₀.reqId e).mpr ⟨he, fun h => hj (h.symm.trans hcall)⟩, hcall⟩
  · rw [hfuture]
    exact h.effect_iff j v
  · simp only [hcalls] at hk'
    obtain ⟨k₀, hk₀, rfl⟩ := Option.map_eq_some_iff.mp hk'
    by_cases hj : i = j
    · subst hj
      rw [hk] at hk₀
      obtain rfl := Option.some.inj hk₀
      rw [if_pos rfl] at hret ⊢
      rcases hend with rfl | ⟨u, rfl, hdone⟩
      · exact absurd hret (by simp)
      · obtain rfl : u = v := by simpa using hret
        exact hdone
    · rw [if_neg hj] at hret ⊢
      exact h.returned j k₀ v hk₀ hret

/-- Every step keeps the invariant. -/
lemma Valid.step (h : Valid s) {m : Move} {t : State} (hm : s.step m = some t) : Valid t := by
  cases m with
  | request rid tool args sid =>
      obtain rfl := Option.some.inj hm
      rcases request_cases rid tool args sid s with ⟨heq, -⟩ | ⟨hnew, heq⟩
      · rw [heq]
        exact h
      · rw [heq]
        exact h.request hnew
  | resolve rid v =>
      obtain rfl := Option.some.inj hm
      rcases resolve_cases rid v s with ⟨e, -, hf, heq⟩ | ⟨heq, -⟩
      · rw [heq]
        exact h.complete hf v
      · rw [heq]
        exact h
  | cancelAll reason scope =>
      obtain rfl := Option.some.inj hm
      exact (h.cancelAll reason scope).valid
  | cancelWaiter i =>
      obtain rfl := Option.some.inj hm
      exact h.cancelWaiter i
  | wake i => exact h.wake hm

theorem valid_of_reachable (h : system.Reachable s) : Valid s := by
  refine h.invariant ?_ fun s m t hs _ hm => hs.step hm
  rintro s rfl
  exact valid_empty

/-! ### What a request may rely on -/

/-- The state can be reached without a cancellation of the call. -/
def Uncancelled (i : ℕ) (s : State) : Prop :=
  system.ReachableVia (fun _ m => m ≠ .cancelWaiter i) s

lemma getElem?_step {m : Move} {t : State} (hs : Valid s) (hm : s.step m = some t)
    (hne : m ≠ .cancelWaiter i) (hk : t.calls[i]? = some k) :
    (k.future = .pending ∧ k.phase = .waiting false)
      ∨ ∃ k₀, s.calls[i]? = some k₀ ∧ (k₀.Undisturbed → k.Undisturbed) := by
  have hset : ∀ {j v}, (s.complete j v).calls[i]? = some k →
      ∃ k₀, s.calls[i]? = some k₀ ∧ (k₀.Undisturbed → k.Undisturbed) := by
    intro j v hk
    rw [getElem?_complete] at hk
    obtain ⟨k₀, hk₀, rfl⟩ := Option.map_eq_some_iff.mp hk
    refine ⟨k₀, hk₀, fun h => ?_⟩
    split
    · exact ⟨by simp, h.2⟩
    · exact h
  cases m with
  | request rid tool args sid =>
      obtain rfl := Option.some.inj hm
      rcases request_cases rid tool args sid s with ⟨heq, -⟩ | ⟨-, heq⟩
      · rw [heq] at hk
        exact .inr ⟨k, hk, id⟩
      · rw [heq] at hk
        simp only [Except.toOption, Option.getD_some] at hk
        rcases lt_or_ge i s.calls.length with hlt | hge
        · rw [List.getElem?_append_left hlt] at hk
          exact .inr ⟨k, hk, id⟩
        · rw [List.getElem?_append_right hge, List.getElem?_singleton] at hk
          split at hk
          · obtain rfl := Option.some.inj hk
            exact .inl ⟨rfl, rfl⟩
          · simp at hk
  | resolve rid v =>
      obtain rfl := Option.some.inj hm
      rcases resolve_cases rid v s with ⟨e, -, -, heq⟩ | ⟨heq, -⟩
      · rw [heq] at hk
        exact .inr (hset hk)
      · rw [heq] at hk
        exact .inr ⟨k, hk, id⟩
  | cancelAll reason scope =>
      obtain rfl := Option.some.inj hm
      obtain ⟨k₀, hk₀, -, -, hphase, hfut⟩ := (hs.cancelAll reason scope).calls i k hk
      refine .inr ⟨k₀, hk₀, fun h => ⟨?_, hphase ▸ h.2⟩⟩
      rcases hfut with heq | ⟨-, heq⟩
      · exact heq ▸ h.1
      · rw [heq]
        simp
  | cancelWaiter j =>
      obtain rfl := Option.some.inj hm
      have hj : j ≠ i := fun h => hne (h ▸ rfl)
      rw [getElem?_cancelWaiter] at hk
      obtain ⟨k₀, hk₀, rfl⟩ := Option.map_eq_some_iff.mp hk
      exact .inr ⟨k₀, hk₀, by rw [if_neg hj]; exact id⟩
  | wake j =>
      obtain ⟨k₁, phase, hk₁, hends, rfl⟩ := wake_eq_some_iff.mp hm
      simp only [List.getElem?_modify, Option.map_eq_map] at hk
      obtain ⟨k₀, hk₀, rfl⟩ := Option.map_eq_some_iff.mp hk
      refine .inr ⟨k₀, hk₀, fun h => ?_⟩
      split
      · rename_i hj
        subst hj
        rw [hk₁] at hk₀
        obtain rfl := Option.some.inj hk₀
        refine ⟨h.1, .inr ?_⟩
        -- an undisturbed call is woken by its decision
        obtain ⟨reqId, sessionId, future, p⟩ := k₁
        obtain ⟨hfut, hphase⟩ := h
        cases future with
        | pending => cases p <;> simp [Call.ends] at hends
        | cancelled => exact absurd rfl hfut
        | done v =>
            rcases hphase with hw | ⟨u, hu⟩
            · simp only at hw
              subst hw
              exact ⟨v, (Option.some.inj hends).symm⟩
            · simp only at hu
              subst hu
              simp [Call.ends] at hends
      · exact h

/-- A call that is not cancelled waits for its decision, or has returned it. -/
theorem undisturbed_of_uncancelled (h : Uncancelled i s) (hk : s.calls[i]? = some k) :
    k.Undisturbed := by
  have hall : ∀ k, s.calls[i]? = some k → k.Undisturbed := by
    refine h.invariant_of (I := fun s => ∀ k, s.calls[i]? = some k → k.Undisturbed)
      (fun s hs => valid_of_reachable hs.reachable) ?_ fun s m t hv hI hne hm k hk => ?_
    · rintro s rfl k hk
      simp at hk
    · rcases getElem?_step hv hm hne hk with ⟨hpend, hw⟩ | ⟨k₀, hk₀, himp⟩
      · exact ⟨by rw [hpend]; simp, .inl hw⟩
      · exact himp (hI k₀ hk₀)
  exact hall k hk

/-- What holds of the requests of a coordinator. -/
structure ExactlyOnce (s : State) : Prop where
  /-- a request is decided at most once -/
  once : (s.effects.map Prod.fst).Nodup
  /-- what a request returns is what it was decided by -/
  returned : ∀ (i : ℕ) (k : Call) (v : Verdict),
    s.calls[i]? = some k → k.phase = .returned v → (i, v) ∈ s.effects
  /-- a request that is not cancelled waits undecided, or returns its decision when it is woken, or
  has returned -/
  returns : ∀ (i : ℕ) (k : Call), s.calls[i]? = some k → Uncancelled i s →
    k.future = .pending ∧ k.phase = .waiting false
      ∨ (∃ v t, (i, v) ∈ s.effects ∧ s.step (.wake i) = some t
          ∧ t.calls[i]? = some { k with phase := .returned v })
      ∨ ∃ v, (i, v) ∈ s.effects ∧ k.phase = .returned v
  /-- `resolve` decides the one undecided request of its id, or raises, and then there is none -/
  resolves : ∀ (rid : ReqId) (v : Verdict),
    (∃ i k t, s.calls[i]? = some k ∧ k.reqId = rid ∧ k.Waits ∧ k.future = .pending
        ∧ s.resolve rid v = .ok t ∧ t.effects = s.effects ++ [(i, v)])
      ∨ s.resolve rid v = .error ⟨rid⟩ ∧ s.step (.resolve rid v) = some s
        ∧ ∀ (i : ℕ) (k : Call), s.calls[i]? = some k → k.reqId = rid → k.Waits →
          k.future ≠ .pending
  /-- `cancel_all` decides undecided requests of its session only, with its denial -/
  cancels : ∀ reason sid, ∃ added, (s.cancelAll reason (some sid)).effects = s.effects ++ added
    ∧ ∀ x ∈ added, x.2 = denial reason
      ∧ ∃ k, s.calls[x.1]? = some k ∧ k.future = .pending ∧ k.sessionId = sid
  /-- the entries are those of the requests that wait -/
  entries : ∀ (rid : ReqId) (e : Entry), s.pending.lookup rid = some e →
    ∃ k, s.calls[e.call]? = some k ∧ k.reqId = rid ∧ k.Waits
  /-- a request that ends takes its own entry along, and no other -/
  cleans : ∀ (i : ℕ) (t : State), s.step (.wake i) = some t → ∀ (rid : ReqId) (e : Entry),
    t.pending.lookup rid = some e ↔ s.pending.lookup rid = some e ∧ e.call ≠ i

/-- **Exactly-once resolution.** In every state of every run of requests, decisions, cancellations
of sessions and of waiters, and wake-ups, over any ids. -/
theorem coordinator_exactly_once {s : State} (h : system.Reachable s) : ExactlyOnce s := by
  have hv := valid_of_reachable h
  refine ⟨hv.once, fun i k v hk hret => ?_, fun i k hk hun => ?_, fun rid v => ?_,
    fun reason sid => ?_, fun rid e he => ?_, fun i t ht => hv.lookup_wake ht⟩
  · exact (hv.effect_iff i v).mpr (future_eq_some_iff.mpr ⟨k, hk, hv.returned i k v hk hret⟩)
  · obtain ⟨hfut, hphase⟩ := undisturbed_of_uncancelled hun hk
    have heffect : ∀ v, k.future = .done v → (i, v) ∈ s.effects := fun v hf =>
      (hv.effect_iff i v).mpr (future_eq_some_iff.mpr ⟨k, hk, hf⟩)
    rcases hphase with hw | ⟨v, hret⟩
    · cases hf : k.future with
      | pending => exact .inl ⟨rfl, hw⟩
      | cancelled => exact absurd hf hfut
      | done v =>
          have hends : k.ends = some (.returned v) := by
            rw [Call.ends, hw, hf]
          refine .inr (.inl ⟨v, _, heffect v hf, wake_eq_some_iff.mpr ⟨k, _, hk, hends, rfl⟩, ?_⟩)
          simp [hk, hf]
    · exact .inr (.inr ⟨v, heffect v (hv.returned i k v hk hret), hret⟩)
  · rcases resolve_cases rid v s with ⟨e, he, hf, heq⟩ | ⟨heq, hnone⟩
    · obtain ⟨k, hk, hrid, -, hw⟩ := hv.entry rid e he
      obtain ⟨k', hk', hpend⟩ := future_eq_some_iff.mp hf
      rw [hk] at hk'
      obtain rfl := Option.some.inj hk'
      exact .inl ⟨e.call, k, _, hk, hrid, hw, hpend, heq, rfl⟩
    · refine .inr ⟨heq, by rw [step, heq]; rfl, fun i k hk hrid hw hpend => ?_⟩
      obtain ⟨e, he, hcall⟩ := hv.waiting i k hk hw
      rw [hrid] at he
      exact hnone e he (future_eq_some_iff.mpr ⟨k, hcall ▸ hk, hpend⟩)
  · obtain ⟨added, heq, hadded⟩ := (hv.cancelAll reason (some sid)).added
    refine ⟨added, heq, fun x hx => ?_⟩
    obtain ⟨hden, k, hk, hpend, hsid⟩ := hadded x hx
    exact ⟨hden, k, hk, hpend, hsid sid rfl⟩
  · obtain ⟨k, hk, hrid, -, hw⟩ := hv.entry rid e he
    exact ⟨k, hk, hrid, hw⟩

/-- A request is made, and decided. -/
def oneDecided : State where
  pending := AList.singleton "s-1:a" ⟨"Bash", "{}", "s-1", 0⟩
  calls := [{ reqId := "s-1:a", sessionId := "s-1", future := .done { decision := .accept } }]
  effects := [(0, { decision := .accept })]

theorem coordinator_exactly_once_oneDecided : ExactlyOnce oneDecided := by
  have hrun : system.run {} [.request "s-1:a" "Bash" "{}" "s-1",
      .resolve "s-1:a" { decision := .accept }] = some oneDecided := by rfl
  exact coordinator_exactly_once (.of_run (.init rfl) hrun)

end State

end GgRelay.Hitl.Waiters
