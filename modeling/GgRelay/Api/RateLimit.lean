import GgRelay.Lib.Lru
import GgRelay.Lib.TokenBucket

/-!
The in-process rate limiter of the API: a token bucket and a lock for each key, in dictionaries
ordered by last use, the oldest entry evicted at the cap and idle buckets swept.

The body of `async with lock` awaits nothing, so no lock is ever held while another coroutine
runs, taking one never suspends, and a call of `acquire` is one step.

* `TokenBucketRateLimiter.Synced`: the buckets and the locks have the same keys, at most
  `lru_cap` of them;
* `requests_exec`: what one key sees of a run that does not drop it is a token bucket of its own.
-/

namespace GgRelay.RateLimit

open TokenBucket

/-- What the limiter is built from. -/
structure Config where
  ratePerMin : ℕ
  burst : ℕ
  lruCap : ℕ
  ttlS : ℤ
  rate_pos : 1 ≤ ratePerMin
  burst_pos : 1 ≤ burst
  cap_pos : 1 ≤ lruCap

/-- Tokens a second. -/
def Config.refillRate (c : Config) : ℚ := c.ratePerMin / 60

lemma Config.refillRate_pos (c : Config) : 0 < c.refillRate :=
  div_pos (by exact_mod_cast c.rate_pos) (by norm_num)

/-- The state of a limiter, each dictionary from the key used last to the key used first. -/
structure Limiter where
  buckets : Dict String (TokenBucket ℚ)
  locks : Dict String Unit

namespace Limiter

/-- A new limiter. -/
def new : Limiter := ⟨∅, ∅⟩

/-- What the callers see of a limiter, and the keys it forgets. -/
inductive Event
  | answer (key : String) (now : ℚ) (allowed : Bool) (retryAfter : ℚ)
  | evict (key : String)
  | sweep (key : String)
deriving DecidableEq, Repr

variable (c : Config)

/-- Pop a key from both dictionaries. -/
def pop (l : Limiter) (key : String) : Limiter := ⟨l.buckets.erase key, l.locks.erase key⟩

/-- The key that `_evict_lru` pops: the one used first, if the cap is reached. -/
def evicted (l : Limiter) : Option String := l.buckets.overflow c.lruCap

/-- `_evict_lru`. -/
def evictLru (l : Limiter) : Limiter := (l.evicted c).elim l l.pop

/-- `acquire`: make room for a new key, then refill its bucket and spend a token. -/
def acquire (key : String) (now : ℚ) (l : Limiter) : Limiter × List Event :=
  let (l₁, dropped) :=
    if key ∈ l.locks then (l, none) else (l.evictLru c, l.evicted c)
  let (allowed, b) :=
    TokenBucket.acquire c.refillRate c.burst now (l₁.buckets.lookup key)
  let retryAfter := if allowed then 0 else (1 - b.tokens) / c.refillRate
  (⟨l₁.buckets.insert key b, l₁.locks.insert key ()⟩,
    dropped.toList.map .evict ++ [.answer key now allowed retryAfter])

/-- The keys that have been idle for longer than `ttl_s`. -/
def stale (now : ℚ) (l : Limiter) : List String :=
  (l.buckets.entries.filter fun p => (c.ttlS : ℚ) < now - p.2.last).map Sigma.fst

/-- `_sweep_once`. -/
def sweepOnce (now : ℚ) (l : Limiter) : Limiter × List Event :=
  ((l.stale c now).foldl pop l, (l.stale c now).map .sweep)

/-- What happens to a limiter, with the time of its clock. -/
inductive Op
  | acquire (key : String) (now : ℚ)
  | sweep (now : ℚ)
deriving DecidableEq, Repr

/-- The reading of the clock. -/
def Op.now : Op → ℚ
  | .acquire _ now => now
  | .sweep now => now

/-- One operation. -/
def step (l : Limiter) : Op → Limiter × List Event
  | .acquire key now => l.acquire c key now
  | .sweep now => l.sweepOnce c now

/-- The operations in turn, and what they show. -/
def exec : Limiter → List Op → Limiter × List Event
  | l, [] => (l, [])
  | l, op :: ops =>
      let (l₁, es) := l.step c op
      let (l₂, es') := exec l₁ ops
      (l₂, es ++ es')

/-- The requests of a key, each with its time and its answer. -/
def requests (key : String) : List Event → List (ℚ × Bool) :=
  List.filterMap fun
    | .answer k now allowed _ => if k = key then some (now, allowed) else none
    | .evict _ => none
    | .sweep _ => none

/-- The key has been evicted or swept. -/
def Dropped (key : String) (es : List Event) : Prop := .evict key ∈ es ∨ .sweep key ∈ es

/-- The times at which a key is requested. -/
def timesOf (key : String) : List Op → List ℚ :=
  List.filterMap fun
    | .acquire k now => if k = key then some now else none
    | .sweep _ => none

variable {c} {l : Limiter} {key k : String} {now : ℚ}

lemma timesOf_acquire (ops : List Op) : timesOf k (.acquire key now :: ops)
    = if key = k then now :: timesOf k ops else timesOf k ops := by
  by_cases h : key = k <;> simp [timesOf, h]

@[simp] lemma pop_buckets : (l.pop key).buckets = l.buckets.erase key := rfl

@[simp] lemma pop_locks : (l.pop key).locks = l.locks.erase key := rfl

@[simp] lemma exec_nil : exec c l [] = (l, []) := rfl

lemma exec_cons (op : Op) (ops : List Op) : exec c l (op :: ops)
    = ((exec c (l.step c op).1 ops).1, (l.step c op).2 ++ (exec c (l.step c op).1 ops).2) :=
  rfl

/-! ### Two dictionaries with the same keys -/

/-- The buckets and the locks have the same keys, in the same order, and there is room for them. -/
structure Synced (c : Config) (l : Limiter) : Prop where
  keys : l.locks.keys = l.buckets.keys
  cap : l.buckets.keys.length ≤ c.lruCap

lemma synced_new : Synced c new := ⟨rfl, Nat.zero_le _⟩

lemma Synced.mem_locks (h : Synced c l) : key ∈ l.locks ↔ key ∈ l.buckets := by
  rw [AList.mem_keys, AList.mem_keys, h.keys]

lemma Synced.pop (h : Synced c l) (key : String) : Synced c (l.pop key) where
  keys := by rw [pop_locks, pop_buckets, AList.keys_erase, AList.keys_erase, h.keys]
  cap := by
    rw [pop_buckets, AList.keys_erase]
    exact (List.length_erase_le ..).trans h.cap

lemma evictLru_buckets : (l.evictLru c).buckets = l.buckets.makeRoom c.lruCap := by
  unfold Limiter.evictLru Dict.makeRoom evicted
  cases l.buckets.overflow c.lruCap <;> rfl

lemma Synced.evictLru (h : Synced c l) : Synced c (l.evictLru c) := by
  unfold Limiter.evictLru
  cases l.evicted c with
  | none => exact h
  | some victim => exact h.pop victim

/-- The room that `acquire` makes for a key. -/
def withRoom (c : Config) (key : String) (l : Limiter) : Limiter :=
  if key ∈ l.locks then l else l.evictLru c

/-- The key that `acquire` drops. -/
def dropped (c : Config) (key : String) (l : Limiter) : Option String :=
  if key ∈ l.locks then none else l.evicted c

/-- What `acquire` does, field by field. -/
lemma acquire_eq (key : String) (now : ℚ) (l : Limiter) :
    let r := TokenBucket.acquire c.refillRate (c.burst : ℚ) now ((l.withRoom c key).buckets.lookup key)
    l.acquire c key now
      = (⟨(l.withRoom c key).buckets.insert key r.2, (l.withRoom c key).locks.insert key ()⟩,
        (l.dropped c key).toList.map .evict
          ++ [.answer key now r.1 (if r.1 then 0 else (1 - r.2.tokens) / c.refillRate)]) := by
  unfold acquire withRoom dropped
  split <;> rfl

lemma Synced.withRoom (h : Synced c l) (key : String) : Synced c (l.withRoom c key) := by
  unfold Limiter.withRoom
  split
  · exact h
  · exact h.evictLru

/-- A bucket that is put where room was made for it stays under the cap. -/
lemma Synced.length_insert (h : Synced c l) (key : String) (b : TokenBucket ℚ) :
    ((l.withRoom c key).buckets.insert key b).keys.length ≤ c.lruCap := by
  refine Dict.length_insert_le ?_
  unfold Limiter.withRoom
  split
  · rename_i hmem
    exact .inl ⟨h.mem_locks.mp hmem, h.cap⟩
  · rw [evictLru_buckets]
    exact .inr (Dict.length_makeRoom_lt c.cap_pos h.cap)

lemma Synced.acquire (h : Synced c l) (key : String) (now : ℚ) :
    Synced c (l.acquire c key now).1 := by
  rw [acquire_eq]
  refine ⟨?_, h.length_insert key _⟩
  rw [AList.keys_insert, AList.keys_insert, (h.withRoom key).keys]

lemma Synced.sweepOnce (h : Synced c l) (now : ℚ) : Synced c (l.sweepOnce c now).1 := by
  have hfold : ∀ (ks : List String) (l : Limiter), Synced c l → Synced c (ks.foldl Limiter.pop l) := by
    intro ks
    induction ks with
    | nil => exact fun _ h => h
    | cons k ks ih => exact fun l h => ih _ (h.pop k)
  exact hfold _ l h

lemma Synced.step (h : Synced c l) : ∀ op, Synced c (l.step c op).1
  | .acquire key now => h.acquire key now
  | .sweep now => h.sweepOnce now

/-- The two dictionaries stay in step, and under the cap, through every run. -/
theorem synced_exec (ops : List Op) : ∀ {l : Limiter}, Synced c l → Synced c (exec c l ops).1 := by
  induction ops with
  | nil => exact fun h => h
  | cons op ops ih => exact fun h => ih (h.step op)

/-! ### One key of a run -/

lemma lookup_withRoom (hk : l.dropped c key ≠ some k) :
    (l.withRoom c key).buckets.lookup k = l.buckets.lookup k := by
  unfold withRoom
  unfold dropped at hk
  split
  · rfl
  · rename_i hmem
    rw [if_neg hmem] at hk
    rw [evictLru_buckets]
    exact Dict.lookup_makeRoom hk

/-- Making room for a key does not drop its own bucket: the key has none. -/
lemma Synced.dropped_ne (h : Synced c l) (key : String) : l.dropped c key ≠ some key := by
  unfold dropped
  split
  · exact Option.some_ne_none _ |>.symm
  · rename_i hmem
    intro hv
    exact hmem (h.mem_locks.mpr (Dict.mem_of_overflow hv))

lemma dropped_append {es es' : List Event} :
    Dropped k (es ++ es') ↔ Dropped k es ∨ Dropped k es' := by
  simp only [Dropped, List.mem_append]
  tauto

lemma requests_append (k : String) (es es' : List Event) :
    requests k (es ++ es') = requests k es ++ requests k es' :=
  List.filterMap_append

/-- A request is answered by the bucket of its key. -/
lemma Synced.requests_acquire_self (h : Synced c l) (key : String) (now : ℚ) :
    requests key (l.acquire c key now).2
        = [(now, (TokenBucket.acquire c.refillRate (c.burst : ℚ) now (l.buckets.lookup key)).1)]
      ∧ (l.acquire c key now).1.buckets.lookup key
        = some (TokenBucket.acquire c.refillRate c.burst now (l.buckets.lookup key)).2 := by
  have hdrop : requests key ((l.dropped c key).toList.map .evict) = [] := by
    cases l.dropped c key <;> rfl
  rw [acquire_eq, lookup_withRoom (h.dropped_ne key)]
  refine ⟨?_, AList.lookup_insert _⟩
  rw [requests_append, hdrop]
  simp [requests]

/-- A request sweeps nothing. -/
lemma not_dropped_acquire (hk : .evict k ∉ (l.acquire c key now).2) :
    ¬ Dropped k (l.acquire c key now).2 := by
  rintro (hevict | hsweep)
  · exact hk hevict
  · rw [acquire_eq] at hsweep
    simp at hsweep

/-- A request of another key leaves the bucket, unless it drops it. -/
lemma acquire_other (hne : key ≠ k) (hk : ¬ Dropped k (l.acquire c key now).2) :
    requests k (l.acquire c key now).2 = []
      ∧ (l.acquire c key now).1.buckets.lookup k = l.buckets.lookup k := by
  rw [acquire_eq] at hk ⊢
  have hdrop : l.dropped c key ≠ some k := fun hv => hk (by simp [Dropped, hv])
  refine ⟨?_, (AList.lookup_insert_ne hne.symm).trans (lookup_withRoom hdrop)⟩
  cases l.dropped c key <;> simp [requests, hne]

lemma lookup_foldl_pop {ks : List String} (hk : k ∉ ks) (l : Limiter) :
    (ks.foldl pop l).buckets.lookup k = l.buckets.lookup k := by
  induction ks generalizing l with
  | nil => rfl
  | cons k' ks ih =>
      rw [List.mem_cons, not_or] at hk
      exact (ih hk.2 _).trans (AList.lookup_erase_ne hk.1)

/-- The bucket of `k` is still there, or it has been dropped. -/
def Keeps (k : String) (l l' : Limiter) : Prop :=
  l'.buckets.lookup k = l.buckets.lookup k ∨ l'.buckets.lookup k = none

lemma Keeps.refl (k : String) (l : Limiter) : Keeps k l l := .inl rfl

lemma Keeps.trans {l' l'' : Limiter} (h : Keeps k l l') (h' : Keeps k l' l'') : Keeps k l l'' := by
  rcases h' with heq | hnone
  · rwa [Keeps, heq]
  · exact .inr hnone

lemma keeps_pop (k key : String) (l : Limiter) : Keeps k l (l.pop key) := by
  by_cases h : k = key
  · exact .inr (h ▸ AList.lookup_erase _ _)
  · exact .inl (AList.lookup_erase_ne h)

lemma keeps_withRoom (k key : String) (l : Limiter) : Keeps k l (l.withRoom c key) := by
  unfold withRoom evictLru
  split
  · exact .refl k l
  · cases l.evicted c with
    | none => exact .refl k l
    | some victim => exact keeps_pop k victim l

lemma keeps_foldl_pop (k : String) (ks : List String) (l : Limiter) : Keeps k l (ks.foldl pop l) := by
  induction ks generalizing l with
  | nil => exact .refl k l
  | cons key ks ih => exact (keeps_pop k key l).trans (ih _)

/-- A key that is popped is gone. -/
lemma lookup_foldl_pop_of_mem {ks : List String} (hk : k ∈ ks) (l : Limiter) :
    (ks.foldl pop l).buckets.lookup k = none := by
  have hgone : ∀ (ks : List String) (l : Limiter), l.buckets.lookup k = none →
      (ks.foldl pop l).buckets.lookup k = none := by
    intro ks l hnone
    by_cases hmem : k ∈ ks
    · rcases keeps_foldl_pop k ks l with heq | hnone'
      · rw [heq, hnone]
      · exact hnone'
    · rw [lookup_foldl_pop hmem, hnone]
  induction ks generalizing l with
  | nil => exact absurd hk List.not_mem_nil
  | cons key ks ih =>
      by_cases hkey : k = key
      · exact hgone ks _ (hkey ▸ AList.lookup_erase _ _)
      · exact ih ((List.mem_cons.mp hk).resolve_left hkey) _

/-- A sweep forgets the bucket of a key, if it has been idle for too long, or leaves it. -/
lemma lookup_sweepOnce (k : String) (now : ℚ) (l : Limiter) :
    (l.sweepOnce c now).1.buckets.lookup k = l.buckets.lookup k
      ∨ ∃ b, l.buckets.lookup k = some b ∧ c.ttlS < now - b.last
        ∧ (l.sweepOnce c now).1.buckets.lookup k = none := by
  by_cases hmem : k ∈ l.stale c now
  · obtain ⟨⟨k', b⟩, hp, rfl⟩ := List.mem_map.mp hmem
    obtain ⟨hentry, hidle⟩ := List.mem_filter.mp hp
    exact .inr ⟨b, AList.mem_lookup_iff.mpr hentry, of_decide_eq_true hidle,
      lookup_foldl_pop_of_mem hmem l⟩
  · exact .inl (lookup_foldl_pop hmem l)

lemma requests_drops (ks : List String) : requests k (ks.map .sweep) = [] := by
  induction ks with
  | nil => rfl
  | cons k' ks ih => exact ih

/-- A sweep leaves the bucket, unless it drops it. -/
lemma sweep_keeps (hk : ¬ Dropped k (l.sweepOnce c now).2) :
    requests k (l.sweepOnce c now).2 = []
      ∧ (l.sweepOnce c now).1.buckets.lookup k = l.buckets.lookup k :=
  ⟨requests_drops _, lookup_foldl_pop (fun hmem => hk (.inr (List.mem_map_of_mem hmem))) l⟩

/-- What a key sees of a run that does not drop it is a token bucket of its own. -/
theorem requests_exec (k : String) (ops : List Op) : ∀ {l : Limiter}, Synced c l →
    ¬ Dropped k (exec c l ops).2 →
    requests k (exec c l ops).2
      = answers c.refillRate c.burst (l.buckets.lookup k) ((timesOf k ops).map Request.kept) := by
  induction ops with
  | nil => exact fun _ _ => rfl
  | cons op ops ih =>
      intro l h hk
      rw [exec_cons] at hk ⊢
      rw [dropped_append, not_or] at hk
      have hrest := ih (h.step op) hk.2
      rw [requests_append, hrest]
      cases op with
      | sweep now =>
          obtain ⟨hreq, hlook⟩ := sweep_keeps hk.1
          rw [step, hreq, hlook]
          rfl
      | acquire key now =>
          by_cases hkey : key = k
          · subst hkey
            obtain ⟨hreq, hlook⟩ := h.requests_acquire_self key now
            rw [step, hreq, hlook, timesOf_acquire, if_pos rfl, List.map_cons, answers_cons]
            rfl
          · obtain ⟨hreq, hlook⟩ := acquire_other hkey hk.1
            rw [step, hreq, hlook, timesOf_acquire, if_neg hkey]
            rfl

lemma timesOf_sorted (k : String) {ops : List Op}
    (h : (ops.map Op.now).Pairwise (· ≤ ·)) : (timesOf k ops).Pairwise (· ≤ ·) := by
  rw [List.pairwise_map] at h
  refine h.filterMap _ fun op op' hle now hnow now' hnow' => ?_
  cases op <;> cases op' <;> simp_all [Op.now]

/-! ### A bucket between two requests of its key -/

lemma keeps_exec (k : String) (ops : List Op) (hk : timesOf k ops = []) :
    ∀ l : Limiter, Keeps k l (exec c l ops).1 := by
  induction ops with
  | nil => exact fun l => .refl k l
  | cons op ops ih =>
      intro l
      cases op with
      | sweep now => exact (keeps_foldl_pop k _ l).trans (ih hk _)
      | acquire key now =>
          rw [timesOf_acquire] at hk
          have hne : key ≠ k := by
            rintro rfl
            simp at hk
          rw [if_neg hne] at hk
          have hins : (l.acquire c key now).1.buckets.lookup k
              = (l.withRoom c key).buckets.lookup k := by
            rw [acquire_eq]
            exact AList.lookup_insert_ne hne.symm
          have hstep : Keeps k l (l.acquire c key now).1 := by
            rw [Keeps, hins]
            exact keeps_withRoom k key l
          exact hstep.trans (ih hk _)

/-! ### What the limiter promises -/

/-- The answer to a request of `k`, and what it costs to be denied. -/
lemma Synced.answer_mem (h : Synced c l) {allowed : Bool} {r : ℚ}
    (hmem : .answer k now allowed r ∈ (l.acquire c k now).2) :
    let b := TokenBucket.acquire c.refillRate (c.burst : ℚ) now (l.buckets.lookup k)
    allowed = b.1 ∧ r = if b.1 then 0 else (1 - b.2.tokens) / c.refillRate := by
  rw [acquire_eq, lookup_withRoom (h.dropped_ne k)] at hmem
  cases l.dropped c k <;> simpa using hmem

/-- Every request is answered. -/
lemma Synced.answered (h : Synced c l) (k : String) (now : ℚ) :
    ∃ r, .answer k now
      (TokenBucket.acquire c.refillRate (c.burst : ℚ) now (l.buckets.lookup k)).1 r
        ∈ (l.acquire c k now).2 := by
  rw [acquire_eq, lookup_withRoom (h.dropped_ne k)]
  exact ⟨_, List.mem_append_right _ (List.mem_singleton_self _)⟩

lemma Config.one_le_burst (c : Config) : (1 : ℚ) ≤ c.burst := by exact_mod_cast c.burst_pos

/-- In a window of the clock, a key that is not dropped is allowed at most the burst, and what the
rate adds over the window. -/
theorem allowedIn_exec_le (hsync : Synced c l) {ops : List Op}
    (hs : (ops.map Op.now).Pairwise (· ≤ ·)) (hk : ¬ Dropped k (exec c l ops).2) {t T : ℚ}
    (hT : 0 ≤ T) :
    (allowedIn t (t + T) (requests k (exec c l ops).2) : ℚ)
      ≤ c.burst + c.ratePerMin / 60 * T := by
  rw [requests_exec k ops hsync hk]
  calc (allowedIn t (t + T) (answers c.refillRate (c.burst : ℚ) (l.buckets.lookup k)
          ((timesOf k ops).map Request.kept)) : ℚ)
      ≤ c.burst + (t + T - t) * c.refillRate :=
        allowedIn_le c.refillRate_pos (zero_le_one.trans (Config.one_le_burst c))
          (le_add_of_nonneg_right hT) (timesOf_sorted k hs) _
    _ = c.burst + c.ratePerMin / 60 * T := by
        rw [Config.refillRate]
        ring

/-- A request that was denied is allowed when it is repeated after the wait it was told. -/
theorem allowed_after_wait (hsync : Synced c l) {r : ℚ}
    (hden : .answer k now false r ∈ (l.acquire c k now).2) {ops : List Op}
    (hops : timesOf k ops = []) {later : ℚ} (hwait : now + r ≤ later) :
    ∃ r', .answer k later true r'
      ∈ ((exec c (l.acquire c k now).1 ops).1.acquire c k later).2 := by
  obtain ⟨hfalse, hr⟩ := hsync.answer_mem hden
  have hsync' := synced_exec ops (hsync.acquire k now)
  have hlook := (hsync.requests_acquire_self k now).2
  set b := (TokenBucket.acquire c.refillRate (c.burst : ℚ) now (l.buckets.lookup k)).2 with hb
  rw [← hfalse, if_neg Bool.false_ne_true] at hr
  have hlast : b.last = now := acquire_last
  have htrue : (TokenBucket.acquire c.refillRate (c.burst : ℚ) later
      ((exec c (l.acquire c k now).1 ops).1.buckets.lookup k)).1 = true := by
    rcases keeps_exec k ops hops (l.acquire c k now).1 with heq | hnone
    · rw [heq, hlook]
      exact acquire_after_wait c.refillRate_pos (Config.one_le_burst c) (by rwa [hlast, ← hr])
    · rw [hnone]
      exact acquire_none (Config.one_le_burst c)
  obtain ⟨r', hmem⟩ := hsync'.answered k later
  rw [htrue] at hmem
  exact ⟨r', hmem⟩

/-- From any state a limiter gets to: what a key is allowed in a window while it keeps its bucket,
that the wait told to a denied request is enough, and that the two dictionaries have the same keys,
at most `lru_cap` of them. -/
theorem limiter_bounded (c : Config) (k : String) (before : List Op) :
    let l := (exec c new before).1
    (∀ ops : List Op, (ops.map Op.now).Pairwise (· ≤ ·) → ¬ Dropped k (exec c l ops).2 →
      ∀ t T : ℚ, 0 ≤ T → (allowedIn t (t + T) (requests k (exec c l ops).2) : ℚ)
        ≤ c.burst + c.ratePerMin / 60 * T)
    ∧ (∀ now r : ℚ, .answer k now false r ∈ (l.acquire c k now).2 →
      ∀ ops : List Op, timesOf k ops = [] → ∀ later : ℚ, now + r ≤ later →
        ∃ r', .answer k later true r'
          ∈ ((exec c (l.acquire c k now).1 ops).1.acquire c k later).2)
    ∧ l.locks.keys = l.buckets.keys ∧ l.buckets.keys.length ≤ c.lruCap := by
  have hsync : Synced c (exec c new before).1 := synced_exec before synced_new
  refine ⟨fun ops hs hk t T hT => allowedIn_exec_le hsync hs hk hT,
    fun now r hden ops hops later hwait => allowed_after_wait hsync hden hops hwait,
    hsync.keys, hsync.cap⟩

/-- One token a second, one at a time. -/
def onePerSecond : Config := ⟨60, 1, 1, 3600, by decide, by decide, by decide⟩

/-- Three requests within a second and a half: the second is denied and told to wait a second, the
third comes when it has. -/
theorem limiter_bounded_onePerSecond :
    allowedIn (0 : ℚ) (0 + 1) (requests "a" (exec onePerSecond new
        [.acquire "a" 0, .acquire "a" (1 / 2), .acquire "a" (3 / 2)]).2) ≤ (2 : ℚ)
      ∧ ∃ r', .answer "a" (3 / 2) true r' ∈ ((exec onePerSecond ((exec onePerSecond new
        [.acquire "a" 0]).1.acquire onePerSecond "a" (1 / 2)).1 [.acquire "b" 1]).1.acquire
          onePerSecond "a" (3 / 2)).2 := by
  refine ⟨?_, ?_⟩
  · have h := (limiter_bounded onePerSecond "a" []).1
      [.acquire "a" 0, .acquire "a" (1 / 2), .acquire "a" (3 / 2)] (by decide +kernel)
      (by unfold Dropped; decide +kernel) 0 1 (by norm_num)
    refine h.trans ?_
    norm_num [onePerSecond]
  · exact (limiter_bounded onePerSecond "a" [.acquire "a" 0]).2.1 (1 / 2) (1 / 2)
      (by decide +kernel) [.acquire "b" 1] (by decide +kernel) (3 / 2) (by norm_num)

end Limiter

end GgRelay.RateLimit
