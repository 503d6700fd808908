import GgRelay.Auth.Resolver

/-!
A revocation takes effect: a call of `resolve` that starts after the row was revoked and the cache
invalidated does not return the key.

The invalidation drops the cache entry and leaves the lookups alone that are under way, and a lookup
that has read the row before the revocation writes the cache when it returns.

* `Withdrawn` is the invariant: what is known of an invalidated key is that it is not valid;
* `RevocationGuard` is the condition, `revocation_takes_effect` the result about runs, and
  `late_lookup_revives_key` a run in which a lookup is overtaken by a revocation.
-/

namespace GgRelay

namespace ApiKeyTable

variable {t t' : ApiKeyTable} {key : String}

/-- A key stays dead under whatever keeps hashes and revocations. -/
lemma Dead.mapRows (h : t.Dead key) {f : ApiKeyRow → ApiKeyRow}
    (hf : ∀ r, (f r).label = r.label) (hk : ∀ r, (f r).keyHash = r.keyHash)
    (hr : ∀ r, r.revokedAt ≠ none → (f r).revokedAt ≠ none) : (t.mapRows f hf).Dead key := by
  obtain ⟨r, hget, hrev⟩ := h
  exact ⟨f r, by rw [getByHash_mapRows hk, hget]; rfl, hr r hrev⟩

lemma Dead.revoke (h : t.Dead key) (label : String) (now : Time) :
    (t.revoke label now).Dead key := by
  refine h.mapRows _ ?_ ?_
  · intro r
    simp only [revokeRow]
    split <;> rfl
  · intro r hr
    simp only [revokeRow]
    split
    · simp
    · exact hr

lemma Dead.create (h : t.Dead key) {row : ApiKeyRow} (hc : t.create row = some t') :
    t'.Dead key := by
  obtain ⟨r, hget, hrev⟩ := h
  exact ⟨r, getByHash_create hc hget, hrev⟩

/-- The `SELECT` of a lookup finds a dead key revoked. -/
lemma Dead.revokedAt_ne_none (h : t.Dead key) : ∀ r ∈ t.getByHash key, r.revokedAt ≠ none := by
  obtain ⟨r, hget, hrev⟩ := h
  intro r' hr'
  rw [hget] at hr'
  cases hr'
  exact hrev

end ApiKeyTable

/-- What is known of a key that was revoked and invalidated is that it is not valid. -/
structure Withdrawn (s : Resolver) : Prop where
  dead : ∀ key, s.invalidated key = true → s.table.Dead key
  cache : ∀ key v e, s.invalidated key = true → s.cache key = some (v, e) → v = none
  seen : ∀ i key row, s.late i = true → (s.calls i).stage = .leading key → s.seen i = some row →
    ∀ r ∈ row, r.revokedAt ≠ none
  late : ∀ i key, s.late i = true → ((s.calls i).stage = .leading key ∨
    ∃ j, (s.calls i).stage = .waiting key j) → s.invalidated key = true
  told : ∀ i key j v, s.late i = true → (s.calls i).stage = .waiting key j →
    s.futures j = .settled (.returned v) → v = none
  done : ∀ i j v, s.late i = true → (s.calls i).stage = .done j (some (.returned v)) → v = none

/-- No lookup that has read the row unrevoked returns after the invalidation. -/
def RevocationGuard (s : Resolver) : ResolverLabel → Prop
  | .finish i =>
      match (s.calls i).stage, s.seen i with
      | .leading key, some row => s.invalidated key = true → ∀ r ∈ row, r.revokedAt ≠ none
      | _, _ => True
  | _ => True

instance (s : Resolver) (l : ResolverLabel) : Decidable (RevocationGuard s l) := by
  unfold RevocationGuard
  split
  · split <;> infer_instance
  · infer_instance

namespace Withdrawn

variable {cfg : ResolverConfig} {s t : Resolver}

/-- Only the table, and it keeps the dead keys dead. -/
lemma of_table (h : Withdrawn s) {table : ApiKeyTable}
    (ht : ∀ key, s.table.Dead key → table.Dead key) : Withdrawn { s with table := table } where
  dead key hk := ht key (h.dead key hk)
  cache := h.cache
  seen := h.seen
  late := h.late
  told := h.told
  done := h.done

/-- Only the cache, and it loses entries. -/
lemma of_cache (h : Withdrawn s) {cache : String → Option (Option ResolvedKey × Time)}
    {touch : String → Option Time} (hc : ∀ key p, cache key = some p → s.cache key = some p) :
    Withdrawn { s with cache := cache, lastTouch := touch } where
  dead := h.dead
  cache key v e hk hv := h.cache key v e hk (hc key _ hv)
  seen := h.seen
  late := h.late
  told := h.told
  done := h.done

lemma drop (h : Withdrawn s) (key : String) : Withdrawn (s.drop key) := by
  have hinv : ∀ k, (s.drop key).invalidated k = true →
      s.invalidated k = true ∨ k = key ∧ s.table.Dead key := by
    intro k hk
    simp only [Resolver.drop] at hk
    split at hk
    · rename_i hdead
      by_cases hkey : k = key
      · exact Or.inr ⟨hkey, hdead⟩
      · rw [Function.update_of_ne hkey] at hk
        exact Or.inl hk
    · exact Or.inl hk
  have hmono : ∀ k, s.invalidated k = true → (s.drop key).invalidated k = true := by
    intro k hk
    simp only [Resolver.drop]
    split
    · by_cases hkey : k = key
      · subst hkey
        simp
      · rwa [Function.update_of_ne hkey]
    · exact hk
  refine ⟨?_, ?_, h.seen, ?_, h.told, h.done⟩
  · intro k hk
    rcases hinv k hk with hk | ⟨rfl, hdead⟩
    · exact h.dead k hk
    · exact hdead
  · intro k v e hk hv
    simp only [Resolver.drop] at hv
    by_cases hkey : k = key
    · subst hkey
      simp at hv
    · rw [Function.update_of_ne hkey] at hv
      rcases hinv k hk with hk | ⟨rfl, -⟩
      · exact h.cache k v e hk hv
      · exact absurd rfl hkey
  · intro i k hl hstage
    exact hmono k (h.late i k hl hstage)

/-- A call that starts. -/
lemma resolve (h : Withdrawn s) (hw : s.toFlights.WellFormed) {key : String}
    (hs : s.step cfg (.resolve key) = some t) : Withdrawn t := by
  obtain ⟨hfresh, hentry, hrunning, hwaiting, hshared, hsettled⟩ := hw
  obtain ⟨hdead, hcache, hseen, hlate, htold, hdone⟩ := h
  have hnext := hfresh s.next (le_refl _)
  simp only [Resolver.step] at hs
  split at hs
  · rename_i v hv
    obtain ⟨touch, touching, heq⟩ := Resolver.touchValid_eq cfg (s.started key) key v
    rw [heq] at hs
    obtain ⟨f, hf, rfl⟩ := Resolver.flight_eq hs
    cases hf
    have hvalid : s.invalidated key = true → v = none := by
      intro hk
      simp only [Resolver.cached] at hv
      split at hv
      · cases hv
      · rename_i v' e hc
        split at hv <;> cases hv
        exact hcache key v e hk hc
    constructor <;> simp only [Resolver.started, Flights.enter, Flights.setCall] <;> grind
  · obtain ⟨f, hf, rfl⟩ := Resolver.flight_eq hs
    simp only [Flights.step] at hf
    split at hf
    · cases hf
      constructor <;>
        simp only [Resolver.started, Flights.lead, Flights.enter, Flights.setCall] <;> grind
    · -- the future of a lookup that runs is not settled
      rename_i l hl
      have hlead : (s.calls l).stage = .leading key := (hentry key l).mp hl
      have hfut : ∀ a, (s.started key).futures l ≠ .settled a := (hrunning l key hlead).2
      have hfut' : ∀ a, s.futures l ≠ .settled a := hfut
      split at hf
      · cases hf
        constructor <;> simp only [Resolver.started, Flights.enter, Flights.setCall] <;> grind
      · rename_i a ha
        exact absurd ha (hfut a)
      · cases hf
        constructor <;> simp only [Resolver.started, Flights.enter, Flights.setCall] <;> grind

/-- A lookup that returns. -/
lemma finish (h : Withdrawn s) (hw : s.toFlights.WellFormed) {i : ℕ}
    (hg : RevocationGuard s (.finish i)) (hs : s.step cfg (.finish i) = some t) :
    Withdrawn t := by
  obtain ⟨hfresh, hentry, hrunning, hwaiting, hshared, hsettled⟩ := hw
  obtain ⟨hdead, hcache, hseen, hlate, htold, hdone⟩ := h
  simp only [Resolver.step] at hs
  split at hs
  · rename_i key row hkey hrow
    split at hs
    · cases hs
    · simp only [RevocationGuard, hkey, hrow] at hg
      have hvalid : s.invalidated key = true → lookupRow cfg s.clock row = none :=
        fun hk => lookupRow_of_revoked cfg s.clock (hg hk)
      generalize lookupRow cfg s.clock row = v at hs hvalid
      obtain ⟨touch, touching, heq⟩ := Resolver.touchValid_eq cfg (s.store cfg key v) key v
      rw [heq] at hs
      obtain ⟨f, hf, rfl⟩ := Resolver.flight_eq hs
      have hf' : s.toFlights.step (.finish i (.returned v)) = some f := hf
      simp only [Flights.step, hkey, Option.some.injEq] at hf'
      subst hf'
      constructor <;>
        simp only [Resolver.store, Flights.leave, Flights.settle, Flights.setStage,
          Flights.setCall] <;> grind
  · cases hs

/-- Any other step of a caller. -/
lemma flight (h : Withdrawn s) (hw : s.toFlights.WellFormed) {k : FlightLabel String Answer}
    (hk : (∃ i, k = .finish i .raised) ∨ (∃ i, k = .wake i) ∨ (∃ i, k = .cancel i) ∨
      ∃ i, k = .deliver i) (hs : s.flight k = some t) : Withdrawn t := by
  obtain ⟨hfresh, hentry, hrunning, hwaiting, hshared, hsettled⟩ := hw
  obtain ⟨hdead, hcache, hseen, hlate, htold, hdone⟩ := h
  obtain ⟨f, hf, rfl⟩ := Resolver.flight_eq hs
  rcases hk with ⟨i, rfl⟩ | ⟨i, rfl⟩ | ⟨i, rfl⟩ | ⟨i, rfl⟩
  · simp only [Flights.step] at hf
    split at hf <;> cases hf
    constructor <;>
      simp only [Flights.leave, Flights.settle, Flights.setStage, Flights.setCall] <;> grind
  · simp only [Flights.step] at hf
    split at hf
    · split at hf <;> cases hf <;> constructor <;>
        simp only [Flights.setStage, Flights.setCall] <;> grind
    · cases hf
  · simp only [Flights.step] at hf
    split at hf <;> cases hf
    · constructor <;> simp only [Flights.setCall] <;> grind
    · constructor <;> simp only [Flights.cancelFuture, Flights.setCall] <;> grind
  · simp only [Flights.step] at hf
    split at hf
    · split at hf <;> cases hf
      constructor <;> simp only [Flights.leave, Flights.setStage, Flights.setCall] <;> grind
    · cases hf

/-- The `SELECT` of a lookup. -/
lemma read (h : Withdrawn s) {i : ℕ} (hs : s.step cfg (.read i) = some t) : Withdrawn t := by
  simp only [Resolver.step] at hs
  split at hs
  · rename_i key hkey _
    cases hs
    refine ⟨h.dead, h.cache, ?_, h.late, h.told, h.done⟩
    intro j k row hl hstage hrow
    change Function.update s.seen i _ j = some row at hrow
    by_cases hj : j = i
    · subst hj
      have hk : k = key := by
        rw [hkey] at hstage
        cases hstage
        rfl
      subst hk
      rw [Function.update_self] at hrow
      cases hrow
      exact (h.dead k (h.late j k hl (Or.inl hstage))).revokedAt_ne_none
    · rw [Function.update_of_ne hj] at hrow
      exact h.seen j k row hl hstage hrow
  · cases hs

/-- **Every admitted step keeps it.** -/
theorem step {l : ResolverLabel} (h : Withdrawn s) (hw : s.toFlights.WellFormed)
    (hg : RevocationGuard s l) (hs : s.step cfg l = some t) : Withdrawn t := by
  cases l with
  | resolve key => exact h.resolve hw hs
  | read i => exact h.read hs
  | finish i => exact h.finish hw hg hs
  | fail i => exact h.flight hw (Or.inl ⟨i, rfl⟩) hs
  | wake i => exact h.flight hw (Or.inr (Or.inl ⟨i, rfl⟩)) hs
  | cancel i => exact h.flight hw (Or.inr (Or.inr (Or.inl ⟨i, rfl⟩))) hs
  | deliver i => exact h.flight hw (Or.inr (Or.inr (Or.inr ⟨i, rfl⟩))) hs
  | evict key =>
      cases hs
      refine h.of_cache ?_
      intro k p hk
      by_cases hkey : k = key
      · subst hkey
        simp at hk
      · rwa [Function.update_of_ne hkey] at hk
  | touch key =>
      simp only [Resolver.step] at hs
      split at hs <;> cases hs
      have ht : ∀ k, s.table.Dead k →
          (s.table.mapRows (Resolver.touchRow key s.clock)
            (Resolver.touchRow_label key s.clock)).Dead k := by
        intro k hk
        refine hk.mapRows _ ?_ ?_
        · intro r
          simp only [Resolver.touchRow]
          split <;> rfl
        · intro r hr
          simp only [Resolver.touchRow]
          split <;> exact hr
      exact { h.of_table ht with }
  | revoke label =>
      cases hs
      exact h.of_table fun k hk => hk.revoke label s.clock
  | create row =>
      obtain ⟨table, htable, rfl⟩ := Option.map_eq_some_iff.mp hs
      exact h.of_table fun k hk => hk.create htable
  | invalidate key =>
      cases hs
      exact h.drop key
  | findLabel label =>
      simp only [Resolver.step] at hs
      split at hs <;> cases hs
      · exact h
      · exact { h with }
  | dropFound key =>
      simp only [Resolver.step] at hs
      split at hs <;> cases hs
      exact { h.drop key with }
  | clear =>
      cases hs
      exact h.of_cache fun k p hk => by cases hk
  | tick =>
      cases hs
      exact { h with }

end Withdrawn

lemma withdrawn_of_reachable {cfg : ResolverConfig} {s : Resolver}
    (h : (resolverSystem cfg).ReachableVia RevocationGuard s) : Withdrawn s := by
  refine h.invariant_of (fun _ => Resolver.wellFormed) ?_ ?_
  · rintro _ ⟨table, clock, rfl⟩
    constructor <;> simp
  · intro s l t hw hi hg hs
    exact hi.step hw hg hs

/-- In every run that meets the guard, no call that starts after the invalidation of a revoked key
returns the key. -/
theorem revocation_takes_effect {cfg : ResolverConfig} {s : Resolver}
    (h : (resolverSystem cfg).ReachableVia RevocationGuard s) (i : ℕ) (hl : s.late i = true) :
    ∀ j k, (s.calls i).stage ≠ .done j (some (.returned (some k))) := by
  intro j k hstage
  cases (withdrawn_of_reachable h).done i j (some k) hl hstage

/-- The key is cached, revoked and invalidated, and presented again. -/
def revokedInTime : List ResolverLabel :=
  [.resolve "k", .read 0, .finish 0, .revoke "alice", .invalidate "k", .resolve "k", .read 1,
    .finish 1]

theorem revocation_takes_effect_of_revokedInTime : ∃ s,
    (resolverSystem {}).checkedRun RevocationGuard oneKey revokedInTime = some s ∧
      s.late 1 = true ∧ (s.calls 1).stage = .done (some 1) (some (.returned none)) ∧
      ∀ j k, (s.calls 1).stage ≠ .done j (some (.returned (some k))) := by
  have hrun : ((resolverSystem {}).checkedRun RevocationGuard oneKey revokedInTime).map
      (fun s => (s.late 1, (s.calls 1).stage))
        = some (true, .done (some 1) (some (.returned none))) := by decide
  obtain ⟨s, hs, he⟩ := Option.map_eq_some_iff.mp hrun
  simp only [Prod.mk.injEq] at he
  exact ⟨s, hs, he.1, he.2,
    revocation_takes_effect (.of_checkedRun oneKey_reachable hs) 1 he.1⟩

/-- The lookup of the call `0` has read the row when the key is revoked and invalidated. -/
def overtakenLookup : List ResolverLabel :=
  [.resolve "k", .read 0, .revoke "alice", .invalidate "k", .finish 0, .resolve "k"]

/-- It writes the cache when it returns, and the revoked key is valid for the call `1`. -/
theorem late_lookup_revives_key : ∃ s, (resolverSystem {}).Reachable s ∧ s.late 1 = true ∧
    ∃ j k, (s.calls 1).stage = .done j (some (.returned (some k))) := by
  have hrun : ((resolverSystem {}).run oneKey overtakenLookup).map
      (fun s => (s.late 1, (s.calls 1).stage))
        = some (true, .done none (some (.returned (some ⟨"alice", "admin", none, none⟩)))) := by
    decide
  obtain ⟨s, hs, he⟩ := Option.map_eq_some_iff.mp hrun
  simp only [Prod.mk.injEq] at he
  exact ⟨s, .of_run oneKey_reachable hs, he.1, _, _, he.2⟩

end GgRelay
