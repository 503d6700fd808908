import GgRelay.Api.RateLimit

/-!
The rate limiter shared over Redis: a hash for each key, which one script reads, refills, spends
from and writes back, and which Redis forgets some time after its last use.

* `lua_eq`: the script is a token bucket on a millisecond clock;
* `calls_answers`: what one key sees of a run is a token bucket that is lost whenever its hash
  expires;
* `Agrees`: the local limiter and the store answer alike from some time on.
-/

namespace GgRelay.RedisRateLimit

open TokenBucket

/-- What the store is built from. -/
structure Config where
  ratePerMin : ℕ
  burst : ℕ
  ttlS : ℤ
  keyPrefix : String
  rate_pos : 1 ≤ ratePerMin
  burst_pos : 1 ≤ burst

/-- Tokens a second. -/
def Config.refillRate (c : Config) : ℚ := c.ratePerMin / 60

lemma Config.refillRate_pos (c : Config) : 0 < c.refillRate :=
  div_pos (by exact_mod_cast c.rate_pos) (by norm_num)

lemma Config.one_le_burst (c : Config) : (1 : ℚ) ≤ c.burst := by exact_mod_cast c.burst_pos

/-- The name of a key in Redis. -/
def Config.fullKey (c : Config) (key : String) : String := c.keyPrefix ++ ":" ++ key

lemma Config.fullKey_inj {c : Config} {k k' : String} : c.fullKey k = c.fullKey k' ↔ k = k' :=
  String.append_right_inj _

/-- The hash of a key, and when Redis forgets it; times are in milliseconds. -/
structure Hash where
  tokens : ℚ
  lastRefill : ℤ
  expireAt : ℤ
deriving DecidableEq, Repr

/-- The hashes by full key. -/
abbrev Db := Dict String Hash

/-- What the script starts from: `tokens` and `last_refill`, or a full bucket. -/
def luaRead (now : ℤ) (burst : ℚ) : Option Hash → ℚ × ℤ
  | none => (burst, now)
  | some h => (h.tokens, h.lastRefill)

/-- The body of the script on what it read: `allowed` and `retry_after_ms`, then the new `tokens`
and `last_refill`. -/
def luaAcquire (now : ℤ) (burst refillRatePerS : ℚ) (state : Option Hash) : (ℤ × ℤ) × (ℚ × ℤ) :=
  let (tokens, lastRefill) := luaRead now burst state
  let elapsedS : ℚ := (now - lastRefill) / 1000
  let tokens := min burst (tokens + elapsedS * refillRatePerS)
  if 1 ≤ tokens then ((1, 0), (tokens - 1, now))
  else ((0, ⌈(1 - tokens) / refillRatePerS * 1000⌉), (tokens, now))

/-- The script: `HMGET`, the body, `HMSET` and `EXPIRE`; `server` is the clock of Redis. -/
def script (key : String) (now : ℤ) (burst refillRatePerS : ℚ) (ttlS server : ℤ) (db : Db) :
    (ℤ × ℤ) × Db :=
  let (reply, tokens, lastRefill) := luaAcquire now burst refillRatePerS (db.lookup key)
  (reply, db.insert key ⟨tokens, lastRefill, server + ttlS * 1000⟩)

/-- What `acquire` makes of the reply: a script that failed, or said too little, allows. -/
def readReply : Option (List ℤ) → Bool × ℚ
  | some (allowed :: retryAfterMs :: _) => (decide (allowed ≠ 0), retryAfterMs / 1000)
  | _ => (true, 0)

variable (c : Config)

/-- `acquire` at the reading `now` of the caller's clock. -/
def acquire (key : String) (now server : ℤ) (db : Db) : (Bool × ℚ) × Db :=
  let (reply, db') := script (c.fullKey key) now c.burst c.refillRate c.ttlS server db
  (readReply (some [reply.1, reply.2]), db')

/-- Redis forgets the hash of a key, if its time has come. -/
def expire (key : String) (server : ℤ) (db : Db) : Db :=
  match db.lookup (c.fullKey key) with
  | some h => if h.expireAt ≤ server then db.erase (c.fullKey key) else db
  | none => db

/-- What happens to the store. -/
inductive Op
  | call (key : String) (now server : ℤ)
  | expire (key : String) (server : ℤ)
deriving DecidableEq, Repr

/-- A call, as its caller and Redis saw it. -/
structure Call where
  key : String
  now : ℤ
  lost : Bool
  allowed : Bool
  retryAfter : ℚ
deriving DecidableEq, Repr

/-- The operations in turn, and the calls among them. -/
def exec : Db → List Op → Db × List Call
  | db, [] => (db, [])
  | db, .call key now server :: ops =>
      let (answer, db₁) := acquire c key now server db
      let (db₂, calls) := exec db₁ ops
      (db₂, ⟨key, now, decide (c.fullKey key ∉ db), answer.1, answer.2⟩ :: calls)
  | db, .expire key server :: ops => exec (expire c key server db) ops

/-- The calls of a key. -/
def callsOf (key : String) (calls : List Call) : List Call := calls.filter fun q => q.key = key

/-! ### The script is a token bucket -/

/-- A hash as a bucket on a clock of seconds. -/
def Hash.bucket (h : Hash) : TokenBucket ℚ := ⟨h.tokens, h.lastRefill / 1000⟩

/-- A call as a request of a bucket. -/
def Call.request (q : Call) : Request ℚ := ⟨(q.now : ℚ) / 1000, q.lost⟩

section OneStore

variable {c} {now server : ℤ} {k key : String} {db : Db}

lemma luaRead_bucket (now : ℤ) (burst : ℚ) (state : Option Hash) :
    (state.map Hash.bucket).getD (full burst ((now : ℚ) / 1000))
      = ⟨(luaRead now burst state).1, ((luaRead now burst state).2 : ℚ) / 1000⟩ := by
  cases state <;> rfl

/-- The script answers as a bucket on a clock of seconds does, and leaves what it leaves. -/
lemma lua_eq (now : ℤ) (burst rate : ℚ) (state : Option Hash) :
    let r := TokenBucket.acquire rate burst ((now : ℚ) / 1000) (state.map Hash.bucket)
    let s := luaAcquire now burst rate state
    decide (s.1.1 ≠ 0) = r.1 ∧ s.2 = (r.2.tokens, now) := by
  have hrefill : ((state.map Hash.bucket).getD (full burst ((now : ℚ) / 1000))).refill rate burst
      ((now : ℚ) / 1000) = ⟨min burst ((luaRead now burst state).1
        + ((now : ℚ) - (luaRead now burst state).2) / 1000 * rate), (now : ℚ) / 1000⟩ := by
    rw [luaRead_bucket, refill, sub_div]
  simp only [TokenBucket.acquire, hrefill, luaAcquire, spend]
  split <;> exact ⟨rfl, rfl⟩

/-- The bucket of a key. -/
def bucketOf (c : Config) (db : Db) (key : String) : Option (TokenBucket ℚ) :=
  (db.lookup (c.fullKey key)).map Hash.bucket

/-- A call is answered by the bucket of its key, and leaves what the bucket leaves. -/
lemma acquire_self (c : Config) (key : String) (now server : ℤ) (db : Db) :
    let r := TokenBucket.acquire c.refillRate (c.burst : ℚ) ((now : ℚ) / 1000) (bucketOf c db key)
    (acquire c key now server db).1.1 = r.1
      ∧ bucketOf c (acquire c key now server db).2 key = some r.2
      ∧ (acquire c key now server db).2.lookup (c.fullKey key)
        = some ⟨r.2.tokens, now, server + c.ttlS * 1000⟩ := by
  obtain ⟨hallowed, hnext⟩ := lua_eq now c.burst c.refillRate (db.lookup (c.fullKey key))
  have hlook : (acquire c key now server db).2.lookup (c.fullKey key)
      = some ⟨(luaAcquire now c.burst c.refillRate (db.lookup (c.fullKey key))).2.1,
        (luaAcquire now c.burst c.refillRate (db.lookup (c.fullKey key))).2.2,
        server + c.ttlS * 1000⟩ :=
    AList.lookup_insert _
  rw [hnext] at hlook
  refine ⟨hallowed, ?_, hlook⟩
  rw [bucketOf, hlook, Option.map_some]
  exact congrArg some (TokenBucket.ext rfl acquire_last.symm)

/-- A call leaves the hashes of the other keys. -/
lemma acquire_other (hne : k ≠ key) :
    (acquire c key now server db).2.lookup (c.fullKey k) = db.lookup (c.fullKey k) :=
  AList.lookup_insert_ne (Config.fullKey_inj.not.mpr hne)

/-- Redis forgets a hash whose time has come, or nothing changes. -/
lemma lookup_expire (k key : String) (server : ℤ) (db : Db) :
    (expire c key server db).lookup (c.fullKey k) = db.lookup (c.fullKey k)
      ∨ ∃ h, db.lookup (c.fullKey k) = some h ∧ h.expireAt ≤ server
        ∧ (expire c key server db).lookup (c.fullKey k) = none := by
  unfold expire
  cases hlook : db.lookup (c.fullKey key) with
  | none => exact .inl rfl
  | some h =>
      by_cases hdue : h.expireAt ≤ server
      · simp only [if_pos hdue]
        by_cases hk : k = key
        · subst hk
          exact .inr ⟨h, hlook, hdue, AList.lookup_erase _ _⟩
        · exact .inl (AList.lookup_erase_ne (Config.fullKey_inj.not.mpr hk))
      · simp only [if_neg hdue]
        exact .inl trivial

/-! ### One key of a run -/

/-- What a bucket of the key was, up to a loss. -/
def Remembers (c : Config) (k : String) (o : Option (TokenBucket ℚ)) (db : Db) : Prop :=
  bucketOf c db k = o ∨ bucketOf c db k = none

lemma lost_iff (k : String) (db : Db) : c.fullKey k ∉ db ↔ bucketOf c db k = none := by
  rw [bucketOf, Option.map_eq_none_iff, AList.lookup_eq_none]

lemma Remembers.finds {o : Option (TokenBucket ℚ)} (h : Remembers c k o db) (now : ℚ) :
    (⟨now, decide (c.fullKey k ∉ db)⟩ : Request ℚ).finds o = bucketOf c db k := by
  rw [Request.finds]
  by_cases hlost : c.fullKey k ∉ db
  · simp [hlost, (lost_iff k db).mp hlost]
  · rcases h with h | h
    · simp [not_not.mp hlost, h]
    · exact absurd ((lost_iff k db).mpr h) hlost

lemma callsOf_cons (q : Call) (calls : List Call) :
    callsOf k (q :: calls) = if q.key = k then q :: callsOf k calls else callsOf k calls := by
  simp [callsOf, List.filter_cons]

/-- What a key sees of a run is a bucket of its own, lost whenever its hash has expired. -/
theorem calls_answers (k : String) (ops : List Op) : ∀ (db : Db) (o : Option (TokenBucket ℚ)),
    Remembers c k o db →
      (callsOf k (exec c db ops).2).map (fun q => ((q.now : ℚ) / 1000, q.allowed))
        = answers c.refillRate c.burst o ((callsOf k (exec c db ops).2).map Call.request) := by
  induction ops with
  | nil => exact fun _ _ _ => rfl
  | cons op ops ih =>
      intro db o h
      cases op with
      | expire key server =>
          refine ih (expire c key server db) o ?_
          rcases lookup_expire k key server db with heq | ⟨_, _, _, hnone⟩
          · rwa [Remembers, bucketOf, heq]
          · exact .inr (by rw [bucketOf, hnone, Option.map_none])
      | call key now server =>
          have hexec : (exec c db (.call key now server :: ops)).2
              = ⟨key, now, decide (c.fullKey key ∉ db), (acquire c key now server db).1.1,
                  (acquire c key now server db).1.2⟩
                :: (exec c (acquire c key now server db).2 ops).2 := rfl
          rw [hexec, callsOf_cons]
          by_cases hkey : key = k
          · subst hkey
            obtain ⟨hallowed, hnext, -⟩ := acquire_self c key now server db
            rw [if_pos rfl, List.map_cons, List.map_cons, answers_cons, Call.request, h.finds,
              hallowed, ih _ _ (.inl hnext)]
          · rw [if_neg hkey]
            refine ih _ o ?_
            rwa [Remembers, bucketOf, acquire_other (fun heq => hkey heq.symm)]

/-- How many of the calls were allowed. -/
def allowedCalls (calls : List Call) : ℕ := calls.countP Call.allowed

/-- The readings of the callers' clocks are a refill of the whole bucket apart wherever the key was
lost between two calls: every earlier reading lies that far back. -/
def RefilledWhereLost (c : Config) : List Call → Prop
  | [] => True
  | q :: calls =>
      Spaced ((c.burst : ℚ) / c.refillRate) ((q.now : ℚ) / 1000) (calls.map Call.request)

/-- A run of calls of a key is allowed at most the burst, and what the rate gives over the readings
of the run, in whatever order these come. -/
theorem allowedCalls_le (k : String) (db : Db) (ops : List Op)
    (hsp : RefilledWhereLost c (callsOf k (exec c db ops).2)) {lo hi : ℤ}
    (hlo : ∀ q ∈ callsOf k (exec c db ops).2, lo ≤ q.now)
    (hhi : ∀ q ∈ callsOf k (exec c db ops).2, q.now ≤ hi) (hle : lo ≤ hi) :
    (allowedCalls (callsOf k (exec c db ops).2) : ℚ)
      ≤ c.burst + c.ratePerMin / 60 * ((hi - lo) / 1000) := by
  have hans := calls_answers k ops db (bucketOf c db k) (.inl rfl)
  have hthousand : (0 : ℚ) < 1000 := by norm_num
  cases hcalls : callsOf k (exec c db ops).2 with
  | nil =>
      have hlo' : (lo : ℚ) ≤ hi := by exact_mod_cast hle
      have hgap : (0 : ℚ) ≤ c.ratePerMin / 60 * ((hi - lo) / 1000) := by
        have := sub_nonneg.mpr hlo'
        positivity
      simpa [allowedCalls] using add_nonneg (Nat.cast_nonneg c.burst) hgap
  | cons first rest =>
      rw [hcalls] at hans hsp hlo hhi
      have hdiv : ∀ {a b : ℤ}, a ≤ b → (a : ℚ) / 1000 ≤ (b : ℚ) / 1000 := fun hab =>
        div_le_div_of_nonneg_right (by exact_mod_cast hab) hthousand.le
      have hfirst := hdiv (hhi first List.mem_cons_self)
      have hcount : allowedCalls (first :: rest) = allowedUpTo ((hi : ℚ) / 1000)
          ((first :: rest).map fun q => ((q.now : ℚ) / 1000, q.allowed)) := by
        rw [allowedUpTo, List.countP_map, allowedCalls]
        refine List.countP_congr fun q hq => ?_
        simp [hdiv (hhi q hq)]
      have hbound := allowedUpTo_cons_le (q := first.request) (o := bucketOf c db k)
        c.refillRate_pos (zero_le_one.trans (Config.one_le_burst c)) hfirst hsp
      calc (allowedCalls (first :: rest) : ℚ)
          = allowedUpTo ((hi : ℚ) / 1000) (answers c.refillRate c.burst (bucketOf c db k)
              (first.request :: rest.map Call.request)) := by
            rw [hcount, hans, List.map_cons]
        _ ≤ c.burst + ((hi : ℚ) / 1000 - (first.now : ℚ) / 1000) * c.refillRate := hbound
        _ ≤ c.burst + ((hi : ℚ) / 1000 - (lo : ℚ) / 1000) * c.refillRate := by
            have hpos := c.refillRate_pos
            have := hdiv (hlo first List.mem_cons_self)
            gcongr
        _ = c.burst + c.ratePerMin / 60 * ((hi - lo) / 1000) := by
            rw [Config.refillRate]
            ring

end OneStore

/-! ### The local limiter and the store side by side -/

/-- What happens to both, on one millisecond clock. -/
inductive SharedOp
  | request (key : String) (now : ℤ)
  | sweep (now : ℤ)
  | expire (key : String) (now : ℤ)
deriving DecidableEq, Repr

/-- The reading of the clock. -/
def SharedOp.now : SharedOp → ℤ
  | .request _ now => now
  | .sweep now => now
  | .expire _ now => now

/-- What the local limiter sees of it, in seconds. -/
def SharedOp.toLocal : SharedOp → Option RateLimit.Limiter.Op
  | .request key now => some (.acquire key (now / 1000))
  | .sweep now => some (.sweep (now / 1000))
  | .expire _ _ => none

/-- What the store sees of it. -/
def SharedOp.toRedis : SharedOp → Option Op
  | .request key now => some (.call key now now)
  | .sweep _ => none
  | .expire key now => some (.expire key now)

/-- Who was allowed, by the local limiter. -/
def localAnswers (es : List RateLimit.Limiter.Event) : List (String × Bool) :=
  es.filterMap fun
    | .answer key _ allowed _ => some (key, allowed)
    | _ => none

/-- Who was allowed, by the store. -/
def redisAnswers (calls : List Call) : List (String × Bool) := calls.map fun q => (q.key, q.allowed)

open RateLimit (Limiter)

/-- No bucket owes a token, and none was counted in the future. -/
def Solvent (t : ℚ) (o : Option (TokenBucket ℚ)) : Prop := ∀ b ∈ o, 0 ≤ b.tokens ∧ b.last ≤ t

lemma Solvent.mono {t t' : ℚ} {o : Option (TokenBucket ℚ)} (h : Solvent t o) (ht : t ≤ t') :
    Solvent t' o :=
  fun b hb => ⟨(h b hb).1, (h b hb).2.trans ht⟩

/-- The local limiter and the store will give the same answers from `t` on. -/
structure Agrees (cl : RateLimit.Config) (c : Config) (t : ℤ) (l : Limiter) (db : Db) : Prop where
  synced : Limiter.Synced cl l
  alike : ∀ k, Alike c.refillRate c.burst ((t : ℚ) / 1000) (l.buckets.lookup k) (bucketOf c db k)
  localSolvent : ∀ k, Solvent ((t : ℚ) / 1000) (l.buckets.lookup k)
  redisSolvent : ∀ k, Solvent ((t : ℚ) / 1000) (bucketOf c db k)
  expiry : ∀ k h, db.lookup (c.fullKey k) = some h → h.expireAt = h.lastRefill + c.ttlS * 1000

variable {cl : RateLimit.Config} {c} {t t' : ℤ} {l : Limiter} {k key : String} {db : Db}

lemma agrees_new (cl : RateLimit.Config) (c : Config) (t : ℤ) :
    Agrees cl c t Limiter.new ∅ where
  synced := Limiter.synced_new
  alike _ := Alike.refl
  localSolvent _ _ hb := absurd hb (by simp [Limiter.new])
  redisSolvent _ _ hb := absurd hb (by simp [bucketOf])
  expiry _ _ hb := absurd hb (by simp)

lemma Agrees.mono (h : Agrees cl c t l db) (ht : t ≤ t') : Agrees cl c t' l db := by
  have hdiv : (t : ℚ) / 1000 ≤ (t' : ℚ) / 1000 :=
    div_le_div_of_nonneg_right (by exact_mod_cast ht) (by norm_num)
  exact ⟨h.synced, fun k => (h.alike k).mono hdiv, fun k => (h.localSolvent k).mono hdiv,
    fun k => (h.redisSolvent k).mono hdiv, h.expiry⟩

/-- What the two have in common, and expiries long enough for a full refill. -/
structure SameLimits (cl : RateLimit.Config) (c : Config) : Prop where
  rate : c.ratePerMin = cl.ratePerMin
  burst : c.burst = cl.burst
  localTtl : (c.burst : ℚ) ≤ cl.ttlS * c.refillRate
  redisTtl : (c.burst : ℚ) ≤ c.ttlS * c.refillRate

lemma SameLimits.refillRate (h : SameLimits cl c) : cl.refillRate = c.refillRate := by
  rw [RateLimit.Config.refillRate, Config.refillRate, h.rate]

/-- A bucket that is forgotten after a full refill leaves the two in agreement. -/
lemma alike_none_of_idle {b : TokenBucket ℚ} {ttl : ℤ} {u : ℚ}
    (hb : 0 ≤ b.tokens) (httl : (c.burst : ℚ) ≤ ttl * c.refillRate) (hidle : ttl ≤ u - b.last) :
    Alike c.refillRate c.burst u (some b) none :=
  TokenBucket.alike_none c.refillRate_pos.le hb
    (httl.trans (mul_le_mul_of_nonneg_right hidle c.refillRate_pos.le))

/-- A sweep forgets only buckets that are as good as none. -/
lemma Agrees.sweep (hs : SameLimits cl c) (h : Agrees cl c t l db) :
    Agrees cl c t (l.sweepOnce cl ((t : ℚ) / 1000)).1 db := by
  refine ⟨h.synced.sweepOnce _, fun k => ?_, fun k => ?_, h.redisSolvent, h.expiry⟩
  · rcases Limiter.lookup_sweepOnce (c := cl) k ((t : ℚ) / 1000) l with heq | ⟨b, hb, hidle, hnone⟩
    · rw [heq]
      exact h.alike k
    · have hforget := alike_none_of_idle (h.localSolvent k b hb).1 hs.localTtl hidle.le
      rw [hnone]
      exact hforget.symm.trans (hb ▸ h.alike k)
  · rcases Limiter.lookup_sweepOnce (c := cl) k ((t : ℚ) / 1000) l with heq | ⟨b, hb, hidle, hnone⟩
    · rw [heq]
      exact h.localSolvent k
    · rw [hnone]
      exact fun _ hb => absurd hb (Option.not_mem_none _)

/-- Redis forgets only hashes that are as good as none. -/
lemma Agrees.expire (hs : SameLimits cl c) (h : Agrees cl c t l db) (key : String) :
    Agrees cl c t l (expire c key t db) := by
  refine ⟨h.synced, fun k => ?_, h.localSolvent, fun k => ?_, fun k hash hlook => ?_⟩
  · rcases lookup_expire (c := c) k key t db with heq | ⟨hash, hlook, hdue, hnone⟩
    · rw [bucketOf, heq]
      exact h.alike k
    · have hb : bucketOf c db k = some hash.bucket := by rw [bucketOf, hlook, Option.map_some]
      have hidle : (c.ttlS : ℚ) ≤ (t : ℚ) / 1000 - hash.bucket.last := by
        have hdue' : ((hash.lastRefill + c.ttlS * 1000 : ℤ) : ℚ) ≤ t := by
          exact_mod_cast h.expiry k hash hlook ▸ hdue
        push_cast at hdue'
        rw [Hash.bucket]
        linarith
      have hforget := alike_none_of_idle (h.redisSolvent k _ hb).1 hs.redisTtl hidle
      rw [bucketOf, hnone, Option.map_none]
      exact (hb ▸ h.alike k).trans hforget
  · rcases lookup_expire (c := c) k key t db with heq | ⟨hash, hlook, hdue, hnone⟩
    · rw [bucketOf, heq]
      exact h.redisSolvent k
    · rw [bucketOf, hnone, Option.map_none]
      exact fun _ hb => absurd hb (Option.not_mem_none _)
  · rcases lookup_expire (c := c) k key t db with heq | ⟨_, _, _, hnone⟩
    · exact h.expiry k hash (heq ▸ hlook)
    · rw [hnone] at hlook
      exact absurd hlook (by simp)

lemma localAnswers_acquire (h : Limiter.Synced cl l) (key : String) (now : ℚ) :
    localAnswers (l.acquire cl key now).2
      = [(key, (TokenBucket.acquire cl.refillRate cl.burst now (l.buckets.lookup key)).1)] := by
  rw [Limiter.acquire_eq, Limiter.lookup_withRoom (h.dropped_ne key)]
  cases l.dropped cl key <;> simp [localAnswers]

/-- Both give a request the same answer, and leave the same bucket. -/
lemma Agrees.request (hs : SameLimits cl c) (h : Agrees cl c t l db) (key : String)
    (hevict : ∀ k, .evict k ∉ (l.acquire cl key ((t : ℚ) / 1000)).2) :
    localAnswers (l.acquire cl key ((t : ℚ) / 1000)).2 = [(key, (acquire c key t t db).1.1)]
      ∧ Agrees cl c t (l.acquire cl key ((t : ℚ) / 1000)).1 (acquire c key t t db).2 := by
  obtain ⟨hallowed, hbucket, hlook⟩ := acquire_self c key t t db
  have hself := (h.synced.requests_acquire_self key ((t : ℚ) / 1000)).2
  have hsame := h.alike key _ le_rfl
  have hburst : (cl.burst : ℚ) = c.burst := by rw [hs.burst]
  set r := TokenBucket.acquire c.refillRate (c.burst : ℚ) ((t : ℚ) / 1000) (bucketOf c db key)
    with hr
  rw [hs.refillRate, hburst, hsame] at hself
  have hother : ∀ k, k ≠ key →
      (l.acquire cl key ((t : ℚ) / 1000)).1.buckets.lookup k = l.buckets.lookup k := fun k hk =>
    (Limiter.acquire_other hk.symm (Limiter.not_dropped_acquire (hevict k))).2
  have hother' : ∀ k, k ≠ key → bucketOf c (acquire c key t t db).2 k = bucketOf c db k :=
    fun k hk => by rw [bucketOf, acquire_other hk, bucketOf]
  have hnew : Solvent ((t : ℚ) / 1000) (some r.2) := by
    intro b hb
    obtain rfl := Option.mem_some_iff.mp hb
    exact ⟨acquire_tokens_nonneg c.refillRate_pos.le (zero_le_one.trans (Config.one_le_burst c))
      (h.redisSolvent key), acquire_last.le⟩
  refine ⟨?_, h.synced.acquire key _, fun k => ?_, fun k => ?_, fun k => ?_, fun k hash hk => ?_⟩
  · rw [localAnswers_acquire h.synced, hs.refillRate, hburst, hsame, hallowed]
  · by_cases hk : k = key
    · subst hk
      rw [hself, hbucket]
      exact Alike.refl
    · rw [hother k hk, hother' k hk]
      exact h.alike k
  · by_cases hk : k = key
    · subst hk
      rw [hself]
      exact hnew
    · rw [hother k hk]
      exact h.localSolvent k
  · by_cases hk : k = key
    · subst hk
      rw [hbucket]
      exact hnew
    · rw [hother' k hk]
      exact h.redisSolvent k
  · by_cases hkey : k = key
    · subst hkey
      rw [hlook] at hk
      obtain rfl := Option.some.inj hk
      rfl
    · rw [acquire_other hkey] at hk
      exact h.expiry k hash hk

lemma localAnswers_append (es es' : List Limiter.Event) :
    localAnswers (es ++ es') = localAnswers es ++ localAnswers es' :=
  List.filterMap_append

lemma localAnswers_sweepOnce (now : ℚ) (l : Limiter) :
    localAnswers (l.sweepOnce cl now).2 = [] := by
  rw [Limiter.sweepOnce, localAnswers, List.filterMap_map]
  exact List.filterMap_eq_nil_iff.mpr fun _ _ => rfl

/-- While the two agree they go on to give the same answers. -/
theorem Agrees.answers (hs : SameLimits cl c) (ops : List SharedOp) :
    ∀ {t : ℤ} {l : Limiter} {db : Db}, Agrees cl c t l db →
      (t :: ops.map SharedOp.now).Pairwise (· ≤ ·) →
      (∀ k, .evict k ∉ (Limiter.exec cl l (ops.filterMap SharedOp.toLocal)).2) →
      localAnswers (Limiter.exec cl l (ops.filterMap SharedOp.toLocal)).2
        = redisAnswers (exec c db (ops.filterMap SharedOp.toRedis)).2 := by
  induction ops with
  | nil => exact fun _ _ _ => rfl
  | cons op ops ih =>
      intro t l db h hsort hevict
      rw [List.map_cons, List.pairwise_cons, List.pairwise_cons] at hsort
      have hnow := h.mono (hsort.1 op.now List.mem_cons_self)
      have hrest : (op.now :: ops.map SharedOp.now).Pairwise (· ≤ ·) :=
        List.pairwise_cons.mpr hsort.2
      cases op with
      | expire key now => exact ih (hnow.expire hs key) hrest hevict
      | sweep now =>
          have hexec : Limiter.exec cl l ((SharedOp.sweep now :: ops).filterMap SharedOp.toLocal)
              = Limiter.exec cl l (.sweep (now / 1000) :: ops.filterMap SharedOp.toLocal) := rfl
          rw [hexec, Limiter.exec_cons] at hevict ⊢
          rw [localAnswers_append, Limiter.step, localAnswers_sweepOnce, List.nil_append]
          exact ih (hnow.sweep hs) hrest fun k hk => hevict k (List.mem_append_right _ hk)
      | request key now =>
          have hexec : Limiter.exec cl l ((SharedOp.request key now :: ops).filterMap SharedOp.toLocal)
              = Limiter.exec cl l (.acquire key (now / 1000) :: ops.filterMap SharedOp.toLocal) := rfl
          rw [hexec, Limiter.exec_cons] at hevict ⊢
          rw [SharedOp.now] at hnow hrest
          obtain ⟨hanswer, hnext⟩ := hnow.request hs key fun k hk =>
            hevict k (List.mem_append_left _ hk)
          rw [localAnswers_append, Limiter.step, hanswer,
            ih hnext hrest fun k hk => hevict k (List.mem_append_right _ hk)]
          rfl

/-- The local limiter and the store, new and with the same limits, give the same answers to every
list of requests in the order of the clock, whatever is swept or expires in between, as long as the
local limiter evicts nothing; and on any clocks a run of calls of a key is allowed at most the burst
and what the rate gives over the readings of the run, if they lie a full refill apart wherever the
key expired. -/
theorem local_and_redis_agree (cl : RateLimit.Config) (c : Config) (hs : SameLimits cl c) :
    (∀ ops : List SharedOp, (ops.map SharedOp.now).Pairwise (· ≤ ·) →
      (∀ k, .evict k ∉ (Limiter.exec cl .new (ops.filterMap SharedOp.toLocal)).2) →
      localAnswers (Limiter.exec cl .new (ops.filterMap SharedOp.toLocal)).2
        = redisAnswers (exec c ∅ (ops.filterMap SharedOp.toRedis)).2)
    ∧ ∀ (before ops : List Op) (k : String),
      let run := callsOf k (exec c (exec c ∅ before).1 ops).2
      RefilledWhereLost c run → ∀ lo hi : ℤ, (∀ q ∈ run, lo ≤ q.now ∧ q.now ≤ hi) → lo ≤ hi →
        (allowedCalls run : ℚ) ≤ c.burst + c.ratePerMin / 60 * ((hi - lo) / 1000) := by
  refine ⟨fun ops hsort hevict => ?_, fun before ops k hsp lo hi hmem hle => ?_⟩
  · cases ops with
    | nil => rfl
    | cons op ops =>
        refine (agrees_new cl c op.now).answers hs _ ?_ hevict
        rw [List.map_cons, List.pairwise_cons] at hsort ⊢
        refine ⟨fun t ht => ?_, List.pairwise_cons.mpr hsort⟩
        rcases List.mem_cons.mp ht with rfl | ht
        · exact le_rfl
        · exact hsort.1 t ht
  · exact allowedCalls_le k _ ops hsp (fun q hq => (hmem q hq).1) (fun q hq => (hmem q hq).2) hle

/-- One token a second, one at a time, forgotten after an hour. -/
def onePerSecond : Config :=
  ⟨60, 1, 3600, "gg-relay:rl", Limiter.onePerSecond.rate_pos, Limiter.onePerSecond.burst_pos⟩

lemma sameLimits_onePerSecond : SameLimits Limiter.onePerSecond onePerSecond := by
  refine ⟨rfl, rfl, ?_, ?_⟩ <;>
    norm_num [onePerSecond, Limiter.onePerSecond, Config.refillRate]

/-- Two requests a second apart, and a third too early. -/
def threeRequests : List SharedOp := [.request "a" 0, .request "a" 1000, .request "a" 1500]

theorem local_and_redis_agree_onePerSecond :
    localAnswers (Limiter.exec Limiter.onePerSecond .new
        (threeRequests.filterMap SharedOp.toLocal)).2
      = redisAnswers (exec onePerSecond ∅ (threeRequests.filterMap SharedOp.toRedis)).2
    ∧ allowedCalls (callsOf "a" (exec onePerSecond (exec onePerSecond ∅ []).1
        [.call "a" 2000 0, .call "a" 0 100, .call "a" 1000 1100]).2) ≤ 3 := by
  have h := local_and_redis_agree Limiter.onePerSecond onePerSecond sameLimits_onePerSecond
  refine ⟨h.1 threeRequests (by decide) fun k => ?_, ?_⟩
  · have hkept : ∀ e ∈ (Limiter.exec Limiter.onePerSecond .new
        (threeRequests.filterMap SharedOp.toLocal)).2, e ≠ .evict k := by
      have hevents : (Limiter.exec Limiter.onePerSecond .new
          (threeRequests.filterMap SharedOp.toLocal)).2
            = [.answer "a" 0 true 0, .answer "a" 1 true 0, .answer "a" (3 / 2) false (1 / 2)] := by
        decide +kernel
      rw [hevents]
      simp
    exact fun hmem => hkept _ hmem rfl
  · have h₂ := h.2 [] [.call "a" 2000 0, .call "a" 0 100, .call "a" 1000 1100] "a"
      ⟨by decide +kernel, by decide +kernel, trivial⟩ 0 2000 (by decide +kernel) (by norm_num)
    have hbound : (onePerSecond.burst : ℚ)
        + onePerSecond.ratePerMin / 60 * (((2000 : ℤ) - (0 : ℤ)) / 1000) = 3 := by
      norm_num [onePerSecond]
    rw [hbound] at h₂
    exact_mod_cast h₂

/-- Without a condition on expiries the bound fails: a worker whose clock runs an hour behind finds
the key forgotten, at the reading at which another worker emptied its bucket. -/
theorem expired_key_exceeds : ¬ ∀ (c : Config), (c.burst : ℚ) ≤ c.ttlS * c.refillRate →
    ∀ (before ops : List Op) (k : String),
      let run := callsOf k (exec c (exec c ∅ before).1 ops).2
      ∀ lo hi : ℤ, (∀ q ∈ run, lo ≤ q.now ∧ q.now ≤ hi) → lo ≤ hi →
        (allowedCalls run : ℚ) ≤ c.burst + c.ratePerMin / 60 * ((hi - lo) / 1000) := by
  intro hall
  have h := hall onePerSecond sameLimits_onePerSecond.redisTtl []
    [.call "a" 0 0, .expire "a" 3600000, .call "a" 0 3600000] "a" 0 0 (by decide +kernel) le_rfl
  revert h
  decide +kernel

end GgRelay.RedisRateLimit
