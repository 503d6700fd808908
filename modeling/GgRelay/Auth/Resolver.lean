import GgRelay.Auth.ApiKeys
import GgRelay.Lib.SingleFlight

/-!
`DBKeyResolver` (`auth/db_resolver.py`): the cache of resolved keys, and the lookups that concurrent
callers share.

The caller that finds neither a cache entry nor a lookup runs the lookup itself and leaves a future
in `_inflight`; the others await that future directly, so the callers are those of a single flight.

* `lookupRow` is `_lookup` on the row it finds;
* `Resolver` is the resolver over the table, with its callers; `Resolver.step` runs a caller from
  one `await` to the next, with the statements of the store, of `invalidate_cache` and of the revoke
  endpoint in between;
* `Resolver.step_flights` says which steps are steps of the single flight;
* `SingleFlight` is what the callers may expect, `single_flight` the result about runs, and
  `cancelled_waiter_cancels_another` a run in which one of two waiting callers is cancelled.
-/

namespace GgRelay

/-- `ResolvedKey`. -/
structure ResolvedKey where
  label : String
  role : String
  expiresAt : Option Time
  notes : Option String
  deriving DecidableEq, Repr

/-- What the constructor is given. -/
structure ResolverConfig where
  cacheTtl : ℕ := 10
  touchThrottle : ℕ := 60
  /-- `cfg.role_mapping`, when `role_override_mode` is `config` -/
  roleMapping : Option (List (String × String)) := none

/-- The role of a row under `role_override_mode`; an empty override is none. -/
def ResolverConfig.roleFor (cfg : ResolverConfig) (r : ApiKeyRow) : String :=
  match cfg.roleMapping.bind fun m => m.lookup r.label with
  | none => r.role
  | some role => if role = "" then r.role else role

/-- `_lookup`, from the row that `get_by_hash` has returned. -/
def lookupRow (cfg : ResolverConfig) (now : Time) : Option ApiKeyRow → Option ResolvedKey
  | none => none
  | some r =>
      if r.isValid now then
        some { label := r.label, role := cfg.roleFor r, expiresAt := r.expiresAt, notes := r.notes }
      else none

lemma lookupRow_of_revoked (cfg : ResolverConfig) (now : Time) {row : Option ApiKeyRow}
    (h : ∀ r ∈ row, r.revokedAt ≠ none) : lookupRow cfg now row = none := by
  cases row with
  | none => rfl
  | some r =>
      have hr : r.revokedAt ≠ none := h r rfl
      have hv : r.isValid now = false := ApiKeyRow.isValid_of_revoked hr now
      simp [lookupRow, hv]

/-- What a lookup comes to. -/
inductive Answer where
  | returned (key : Option ResolvedKey)
  | raised
  deriving DecidableEq, Repr

/-- The resolver, its callers and the table. -/
structure Resolver extends Flights String Answer where
  /-- `_cache`, each entry with the time it expires at -/
  cache : String → Option (Option ResolvedKey × Time) := fun _ => none
  /-- `_last_touch` -/
  lastTouch : String → Option Time := fun _ => none
  /-- the row that the lookup of a call has found, after its `SELECT` -/
  seen : ℕ → Option (Option ApiKeyRow) := fun _ => none
  /-- the `_safe_touch` tasks -/
  touching : List String := []
  /-- calls of `invalidate_cache(label=...)`, after their `SELECT`, with the hash they found -/
  dropping : List String := []
  table : ApiKeyTable
  clock : Time := 0
  /-- history: an invalidation of a revoked key has completed -/
  invalidated : String → Bool := fun _ => false
  /-- history: the call started after that -/
  late : ℕ → Bool := fun _ => false

inductive ResolverLabel where
  /-- a call of `resolve` with a key of this hash -/
  | resolve (key : String)
  /-- the `SELECT` of a lookup -/
  | read (i : ℕ)
  /-- the lookup of a call returns, or raises -/
  | finish (i : ℕ)
  | fail (i : ℕ)
  /-- a call goes on from the future it awaits -/
  | wake (i : ℕ)
  /-- `task.cancel()` on a caller -/
  | cancel (i : ℕ)
  /-- the `CancelledError` is thrown into the caller that runs a lookup -/
  | deliver (i : ℕ)
  /-- the cache drops an entry to make room -/
  | evict (key : String)
  /-- a `_safe_touch` task writes -/
  | touch (key : String)
  /-- `ApiKeyStore.revoke` and `create` -/
  | revoke (label : String)
  | create (row : ApiKeyRow)
  /-- `invalidate_cache` by hash, by label (its `SELECT` and the rest), and of everything -/
  | invalidate (key : String)
  | findLabel (label : String)
  | dropFound (key : String)
  | clear
  | tick
  deriving DecidableEq

/-- The row of the key is revoked, so that no lookup takes it for valid. -/
def ApiKeyTable.Dead (t : ApiKeyTable) (key : String) : Prop :=
  ∃ r, t.getByHash key = some r ∧ r.revokedAt ≠ none

instance (t : ApiKeyTable) (key : String) : Decidable (t.Dead key) :=
  decidable_of_iff ((t.getByHash key).any (·.revokedAt.isSome) = true) (by
    rw [Option.any_eq_true, ApiKeyTable.Dead]
    simp [Option.ne_none_iff_isSome])

namespace Resolver

variable (cfg : ResolverConfig) (s : Resolver)

/-- A step of the callers. -/
def flight (l : FlightLabel String Answer) : Option Resolver :=
  (s.toFlights.step l).map fun f => { s with toFlights := f }

/-- `self._cache.get(kh, _MISSING)`. -/
def cached (key : String) : Option (Option ResolvedKey) :=
  match s.cache key with
  | none => none
  | some (v, expires) => if s.clock < expires then some v else none

/-- `_schedule_touch`. -/
def scheduleTouch (key : String) : Resolver :=
  if s.clock - (s.lastTouch key).getD 0 < cfg.touchThrottle then s
  else
    { s with
      lastTouch := Function.update s.lastTouch key (some s.clock)
      touching := key :: s.touching }

/-- The same, for a key that is valid. -/
def touchValid (key : String) (v : Option ResolvedKey) : Resolver :=
  if v.isSome then s.scheduleTouch cfg key else s

/-- History: the call that is about to start. -/
def started (key : String) : Resolver :=
  { s with
    seen := Function.update s.seen s.next none
    late := Function.update s.late s.next (s.invalidated key) }

/-- `self._cache[kh] = resolved`. -/
def store (key : String) (v : Option ResolvedKey) : Resolver :=
  { s with cache := Function.update s.cache key (some (v, s.clock + cfg.cacheTtl)) }

/-- `self._cache.pop(key_hash, None)` and `self._last_touch.pop(key_hash, None)`. -/
def drop (key : String) : Resolver :=
  { s with
    cache := Function.update s.cache key none
    lastTouch := Function.update s.lastTouch key none
    invalidated :=
      if s.table.Dead key then Function.update s.invalidated key true else s.invalidated }

/-- The write of a `_safe_touch` task. -/
def touchRow (key : String) (now : Time) (r : ApiKeyRow) : ApiKeyRow :=
  if r.keyHash = key then { r with lastUsedAt := some now } else r

lemma touchRow_label (key : String) (now : Time) (r : ApiKeyRow) :
    (touchRow key now r).label = r.label := by
  simp only [touchRow]
  split <;> rfl

def step : ResolverLabel → Option Resolver
  | .resolve key =>
      match s.cached key with
      | some v => ((s.started key).touchValid cfg key v).flight (.hit (.returned v))
      | none => (s.started key).flight (.join key)
  | .read i =>
      match (s.calls i).stage, s.seen i with
      | .leading key, none =>
          some { s with seen := Function.update s.seen i (some (s.table.getByHash key)) }
      | _, _ => none
  | .finish i =>
      match (s.calls i).stage, s.seen i with
      | .leading key, some row =>
          if (s.calls i).cancelRequested then none
          else
            let v := lookupRow cfg s.clock row
            ((s.store cfg key v).touchValid cfg key v).flight (.finish i (.returned v))
      | _, _ => none
  | .fail i => s.flight (.finish i .raised)
  | .wake i => s.flight (.wake i)
  | .cancel i => s.flight (.cancel i)
  | .deliver i => s.flight (.deliver i)
  | .evict key => some { s with cache := Function.update s.cache key none }
  | .touch key =>
      if key ∈ s.touching then
        some { s with
          touching := s.touching.erase key
          table := s.table.mapRows (touchRow key s.clock) (touchRow_label key s.clock) }
      else none
  | .revoke label => some { s with table := s.table.revoke label s.clock }
  | .create row => (s.table.create row).map fun table => { s with table := table }
  | .invalidate key => some (s.drop key)
  | .findLabel label =>
      match s.table.getByLabel label with
      | none => some s
      | some r => some { s with dropping := r.keyHash :: s.dropping }
  | .dropFound key =>
      if key ∈ s.dropping then some { s.drop key with dropping := s.dropping.erase key } else none
  | .clear => some { s with cache := fun _ => none, lastTouch := fun _ => none }
  | .tick => some { s with clock := s.clock + 1 }

/-- The step of the single flight that a step of the resolver is. -/
def flightLabel : ResolverLabel → Option (FlightLabel String Answer)
  | .resolve key =>
      match s.cached key with
      | some v => some (.hit (.returned v))
      | none => some (.join key)
  | .finish i => (s.seen i).map fun row => .finish i (.returned (lookupRow cfg s.clock row))
  | .fail i => some (.finish i .raised)
  | .wake i => some (.wake i)
  | .cancel i => some (.cancel i)
  | .deliver i => some (.deliver i)
  | _ => none

end Resolver

/-- The resolver of a process that has just started, over any table. -/
def resolverSystem (cfg : ResolverConfig) : System Resolver ResolverLabel where
  init s := ∃ table clock, s = { table := table, clock := clock }
  step s l := s.step cfg l

namespace Resolver

/-- `_schedule_touch` has to do with `last_used_at` only. -/
lemma touchValid_eq (cfg : ResolverConfig) (s : Resolver) (key : String)
    (v : Option ResolvedKey) : ∃ touch touching,
    s.touchValid cfg key v = { s with lastTouch := touch, touching := touching } := by
  simp only [touchValid, scheduleTouch]
  split
  · split <;> exact ⟨_, _, rfl⟩
  · exact ⟨_, _, rfl⟩

variable {cfg : ResolverConfig} {s t : Resolver} {l : ResolverLabel}

lemma flight_eq {k : FlightLabel String Answer} (h : s.flight k = some t) :
    ∃ f, s.toFlights.step k = some f ∧ t = { s with toFlights := f } := by
  obtain ⟨f, hf, rfl⟩ := Option.map_eq_some_iff.mp h
  exact ⟨f, hf, rfl⟩

/-- A step of the resolver is a step of the single flight, or leaves the callers alone. -/
lemma step_flights (h : s.step cfg l = some t) :
    (s.flightLabel cfg l = none ∧ t.toFlights = s.toFlights) ∨
      ∃ k, s.flightLabel cfg l = some k ∧ s.toFlights.step k = some t.toFlights := by
  cases l with
  | resolve key =>
      simp only [step] at h
      split at h
      · rename_i v hv
        obtain ⟨touch, touching, heq⟩ := touchValid_eq cfg (s.started key) key v
        rw [heq] at h
        obtain ⟨f, hf, rfl⟩ := flight_eq h
        exact Or.inr ⟨_, by simp [flightLabel, hv], hf⟩
      · rename_i hv
        obtain ⟨f, hf, rfl⟩ := flight_eq h
        exact Or.inr ⟨_, by simp [flightLabel, hv], hf⟩
  | read i =>
      simp only [step] at h
      split at h <;> cases h
      exact Or.inl ⟨rfl, rfl⟩
  | finish i =>
      simp only [step] at h
      split at h
      · rename_i key row hkey hrow
        split at h
        · cases h
        · obtain ⟨touch, touching, heq⟩ := touchValid_eq cfg
            (s.store cfg key (lookupRow cfg s.clock row)) key (lookupRow cfg s.clock row)
          rw [heq] at h
          obtain ⟨f, hf, rfl⟩ := flight_eq h
          exact Or.inr ⟨_, by simp [flightLabel, hrow], hf⟩
      · cases h
  | fail i | wake i | cancel i | deliver i =>
      obtain ⟨f, hf, rfl⟩ := flight_eq h
      exact Or.inr ⟨_, rfl, hf⟩
  | evict key | revoke label | invalidate key | clear | tick =>
      cases h
      exact Or.inl ⟨rfl, rfl⟩
  | touch key | dropFound key =>
      simp only [step] at h
      split at h <;> cases h
      exact Or.inl ⟨rfl, rfl⟩
  | create row =>
      obtain ⟨table, -, rfl⟩ := Option.map_eq_some_iff.mp h
      exact Or.inl ⟨rfl, rfl⟩
  | findLabel label =>
      simp only [step] at h
      split at h <;> cases h <;> exact Or.inl ⟨rfl, rfl⟩

/-- The runs of the resolver are runs of the single flight. -/
lemma flights_reachable {ok : Resolver → ResolverLabel → Prop}
    {ok' : Flights String Answer → FlightLabel String Answer → Prop}
    (hok : ∀ s l k, ok s l → s.flightLabel cfg l = some k → ok' s.toFlights k)
    (h : (resolverSystem cfg).ReachableVia ok s) :
    (flightSystem String Answer).ReachableVia ok' s.toFlights := by
  refine h.map Resolver.toFlights ?_ ?_
  · rintro _ ⟨table, clock, rfl⟩
    rfl
  · intro s l t hs hst
    rcases step_flights hst with ⟨-, heq⟩ | ⟨k, hk, hkt⟩
    · exact Or.inl heq
    · exact Or.inr ⟨k, hok s l k hs hk, hkt⟩

lemma wellFormed {ok : Resolver → ResolverLabel → Prop}
    (h : (resolverSystem cfg).ReachableVia ok s) : s.toFlights.WellFormed := by
  have hf : (flightSystem String Answer).ReachableVia (fun _ _ => True) s.toFlights :=
    flights_reachable (fun _ _ _ _ _ => trivial) h
  exact Flights.wellFormed_of_reachable hf

end Resolver

/-! ### Single flight -/

/-- What the callers of `resolve` may expect. -/
structure SingleFlight (s : Resolver) : Prop where
  /-- a caller that is not cancelled itself gets a value from the cache, or what the lookup it shared
  came to -/
  answered : ∀ i j a, (s.calls i).stage = .done j a → (s.calls i).cancelRequested = false →
    ∃ x, a = some x ∧ ∀ k ∈ j, s.answers k = some x
  /-- whoever awaits a future that is pending awaits a lookup that runs -/
  attended : ∀ i key j, (s.calls i).stage = .waiting key j → s.futures j = .pending →
    (s.calls j).stage = .leading key
  /-- an entry of `_inflight` belongs to a lookup that runs -/
  cleared : ∀ key i, s.inflight key = some i → (s.calls i).stage = .leading key

/-- Nobody joins a lookup whose future is cancelled, no caller that waits is cancelled while another
waits for the same lookup, and no caller that runs a lookup while anybody waits for it. -/
def ResolveGuard (cfg : ResolverConfig) (s : Resolver) (l : ResolverLabel) : Prop :=
  ∀ k ∈ s.flightLabel cfg l, FlightGuard s.toFlights k

instance (cfg : ResolverConfig) (s : Resolver) (l : ResolverLabel) :
    Decidable (ResolveGuard cfg s l) := by
  unfold ResolveGuard
  infer_instance

/-- In every run that meets the guard, the lookups are shared as they should be. -/
theorem single_flight {cfg : ResolverConfig} {s : Resolver}
    (h : (resolverSystem cfg).ReachableVia (ResolveGuard cfg) s) : SingleFlight s := by
  have hw := Resolver.wellFormed h
  have hs : s.toFlights.Served :=
    Flights.served_of_reachable (Resolver.flights_reachable (fun s l k hg hk => hg k hk) h)
  refine ⟨hs.done, ?_, fun key i hi => (hw.entry key i).mp hi⟩
  intro i key j hi hj
  cases hc : (s.calls i).cancelRequested with
  | true => exact absurd hj (hs.told i key j hi hc)
  | false =>
      rcases hs.waits i key j hi hc with ⟨-, hlead⟩ | ⟨a, ha⟩
      · exact hlead
      · rw [hj] at ha
        cases ha

/-- A resolver over one key. -/
def oneKey : Resolver where
  table :=
    { rows := [{ label := "alice", keyHash := "k", role := "admin" }]
      labels := by decide }

lemma oneKey_reachable {ok : Resolver → ResolverLabel → Prop} :
    (resolverSystem {}).ReachableVia ok oneKey :=
  .init ⟨_, _, rfl⟩

/-- The call `0` looks the key up and the call `1` waits for it; the call `2` starts later. -/
def sharedLookup : List ResolverLabel :=
  [.resolve "k", .resolve "k", .read 0, .finish 0, .wake 1, .resolve "k"]

theorem single_flight_of_sharedLookup : ∃ s,
    (resolverSystem {}).checkedRun (ResolveGuard {}) oneKey sharedLookup = some s ∧
      (s.calls 1).stage = (s.calls 0).stage ∧ SingleFlight s := by
  have hrun : ((resolverSystem {}).checkedRun (ResolveGuard {}) oneKey sharedLookup).map
      (fun s => decide ((s.calls 1).stage = (s.calls 0).stage)) = some true := by decide
  obtain ⟨s, hs, he⟩ := Option.map_eq_some_iff.mp hrun
  exact ⟨s, hs, of_decide_eq_true he, single_flight (.of_checkedRun oneKey_reachable hs)⟩

/-- The calls `1` and `2` wait for the lookup of the call `0`, and the call `1` is cancelled. -/
def cancelledWaiter : List ResolverLabel :=
  [.resolve "k", .resolve "k", .resolve "k", .cancel 1, .wake 2]

/-- The call `2` gets the `CancelledError`, and nobody has cancelled it. -/
theorem cancelled_waiter_cancels_another : ∃ s, (resolverSystem {}).Reachable s ∧
    (s.calls 2).stage = .done (some 0) none ∧ (s.calls 2).cancelRequested = false ∧
      ¬ SingleFlight s := by
  have hrun : ((resolverSystem {}).run oneKey cancelledWaiter).map
      (fun s => ((s.calls 2).stage, (s.calls 2).cancelRequested))
        = some (.done (some 0) none, false) := by decide
  obtain ⟨s, hs, he⟩ := Option.map_eq_some_iff.mp hrun
  simp only [Prod.mk.injEq] at he
  obtain ⟨hstage, hcancel⟩ := he
  refine ⟨s, .of_run oneKey_reachable hs, hstage, hcancel, ?_⟩
  intro hsf
  obtain ⟨x, hx, -⟩ := hsf.answered 2 _ _ hstage hcancel
  cases hx

end GgRelay
