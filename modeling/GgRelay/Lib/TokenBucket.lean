import Mathlib.Algebra.Order.Field.Basic
import Mathlib.Tactic

/-!
Token buckets over an ordered field of times and tokens.

* `TokenBucket.acquire` refills a bucket to the time of a request and spends a token if there is
  one; a bucket that is missing starts full;
* `TokenBucket.answers` serves a list of requests, in the order given, which need not be the order
  of their times; the bucket may be lost before a request;
* `TokenBucket.allowedUpTo_le`: what a bucket can still allow up to a time is what it would hold
  then, and `TokenBucket.allowedUpTo_cons_le` bounds a run of requests by the burst and the refill
  since its first one, `TokenBucket.allowedIn_le` a window of the clock by the burst and the refill
  over it. A loss does no harm where a full refill has passed since every earlier request
  (`TokenBucket.Spaced`);
* `TokenBucket.acquire_after_wait`: a wait for the missing part of a token is enough;
* `TokenBucket.Alike`: two buckets that answer alike from some time on; forgetting a bucket that
  has been idle for a full refill is not noticed (`TokenBucket.alike_none`).
-/

namespace GgRelay

universe u

/-- The tokens of a bucket, and the time they were counted at. -/
@[ext] structure TokenBucket (K : Type u) where
  tokens : K
  last : K
deriving DecidableEq, Repr

namespace TokenBucket

variable {K : Type u} [Field K] [LinearOrder K]

/-- A bucket filled up to the burst. -/
def full (burst now : K) : TokenBucket K := ⟨burst, now⟩

/-- Tokens accrue linearly from the last count on, up to the burst. -/
def refill (rate burst now : K) (b : TokenBucket K) : TokenBucket K where
  tokens := min burst (b.tokens + (now - b.last) * rate)
  last := now

/-- Spend a token if there is one. -/
def spend (b : TokenBucket K) : Bool × TokenBucket K :=
  if 1 ≤ b.tokens then (true, { b with tokens := b.tokens - 1 }) else (false, b)

/-- A request: a missing bucket starts full. -/
def acquire (rate burst now : K) (o : Option (TokenBucket K)) : Bool × TokenBucket K :=
  ((o.getD (full burst now)).refill rate burst now).spend

/-- A request: its time, and whether the bucket has been lost before it. -/
structure Request (K : Type u) where
  now : K
  lost : Bool
deriving DecidableEq, Repr

/-- A request that finds what the one before it left. -/
def Request.kept (now : K) : Request K := ⟨now, false⟩

/-- The bucket a request finds. -/
def Request.finds (q : Request K) (o : Option (TokenBucket K)) : Option (TokenBucket K) :=
  if q.lost then none else o

/-- The answers to a list of requests, each with its time. -/
def answers (rate burst : K) : Option (TokenBucket K) → List (Request K) → List (K × Bool)
  | _, [] => []
  | o, q :: qs =>
      let (allowed, b) := acquire rate burst q.now (q.finds o)
      (q.now, allowed) :: answers rate burst (some b) qs

/-- A lost bucket is asked for again only a refill time after every earlier request, the latest of
which came at `m`. -/
def Spaced (refillTime : K) : K → List (Request K) → Prop
  | _, [] => True
  | m, q :: qs => (q.lost = true → m + refillTime ≤ q.now) ∧ Spaced refillTime (max m q.now) qs

/-- The allowed requests not later than `hi`. -/
def allowedUpTo (hi : K) (l : List (K × Bool)) : ℕ := l.countP fun a => a.2 && decide (a.1 ≤ hi)

/-- The allowed requests of a window. -/
def allowedIn (lo hi : K) (l : List (K × Bool)) : ℕ :=
  l.countP fun a => a.2 && (decide (lo ≤ a.1) && decide (a.1 ≤ hi))

variable {rate burst now lo hi m : K} {q : Request K} {qs : List (Request K)} {b : TokenBucket K} {o : Option (TokenBucket K)}

omit [Field K] in
@[simp] lemma allowedUpTo_nil : allowedUpTo hi ([] : List (K × Bool)) = 0 := rfl

omit [Field K] in
lemma allowedUpTo_cons (a : K × Bool) (l : List (K × Bool)) :
    allowedUpTo hi (a :: l) = allowedUpTo hi l + if a.2 && decide (a.1 ≤ hi) then 1 else 0 :=
  List.countP_cons

omit [Field K] in
lemma allowedIn_le_allowedUpTo (l : List (K × Bool)) : allowedIn lo hi l ≤ allowedUpTo hi l :=
  List.countP_mono_left fun a _ h => by
    simp only [Bool.and_eq_true] at h ⊢
    exact ⟨h.1, h.2.2⟩

omit [Field K] in
lemma allowedIn_eq_zero {l : List (K × Bool)} (h : ∀ a ∈ l, ¬ (lo ≤ a.1 ∧ a.1 ≤ hi)) :
    allowedIn lo hi l = 0 :=
  List.countP_eq_zero.mpr fun a ha hin => h a ha (by simp_all)

omit [Field K] in
lemma allowedIn_cons_of_lt {a : K × Bool} (h : a.1 < lo) (l : List (K × Bool)) :
    allowedIn lo hi (a :: l) = allowedIn lo hi l :=
  List.countP_cons_of_neg (by simp [not_le.mpr h])

lemma spend_of_le (h : 1 ≤ b.tokens) : b.spend = (true, { b with tokens := b.tokens - 1 }) :=
  if_pos h

lemma spend_of_lt (h : b.tokens < 1) : b.spend = (false, b) :=
  if_neg (not_le.mpr h)

@[simp] lemma spend_last : (spend b).2.last = b.last := by
  unfold spend
  split <;> rfl

@[simp] lemma acquire_last : (acquire rate burst now o).2.last = now := spend_last

lemma answers_cons (q : Request K) (qs : List (Request K)) : answers rate burst o (q :: qs)
    = (q.now, (acquire rate burst q.now (q.finds o)).1)
      :: answers rate burst (some (acquire rate burst q.now (q.finds o)).2) qs :=
  rfl

omit [Field K] [LinearOrder K] in
@[simp] lemma finds_kept : (Request.kept now).finds o = o := rfl

/-- Every request is answered, in its turn. -/
@[simp] lemma map_fst_answers (o : Option (TokenBucket K)) (qs : List (Request K)) :
    (answers rate burst o qs).map Prod.fst = qs.map Request.now := by
  induction qs generalizing o with
  | nil => rfl
  | cons q qs ih => rw [answers_cons, List.map_cons, List.map_cons, ih]

lemma spaced_kept (refillTime : K) (ts : List K) :
    ∀ m : K, Spaced refillTime m (ts.map Request.kept) := by
  induction ts with
  | nil => exact fun _ => trivial
  | cons t ts ih => exact fun m => ⟨fun h => absurd h Bool.false_ne_true, ih _⟩

/-- What is left after a request, with the token it took, is what was there before it. -/
lemma spend_tokens : (spend b).2.tokens + (if (spend b).1 then 1 else 0) = b.tokens := by
  rcases le_or_gt 1 b.tokens with h | h
  · simp [spend_of_le h]
  · simp [spend_of_lt h]

lemma refill_tokens_le_burst : (refill rate burst now b).tokens ≤ burst := min_le_left _ _

lemma refill_tokens_le :
    (refill rate burst now b).tokens ≤ b.tokens + (now - b.last) * rate := min_le_right _ _

/-- An allowed request found a whole token. -/
lemma one_le_of_spend (h : (spend b).1 = true) : 1 ≤ b.tokens := by
  by_contra hlt
  rw [spend_of_lt (not_le.mp hlt)] at h
  exact Bool.false_ne_true h

/-- One request lowers what the bucket would hold at `hi` by the token it takes. -/
lemma acquire_potential (o : Option (TokenBucket K)) :
    (acquire rate burst now o).2.tokens + (hi - now) * rate
        + (if (acquire rate burst now o).1 then 1 else 0)
      = ((o.getD (full burst now)).refill rate burst now).tokens + (hi - now) * rate := by
  have h := spend_tokens (b := (o.getD (full burst now)).refill rate burst now)
  rw [acquire, ← h]
  ring

/-- A request that finds no bucket is allowed. -/
theorem acquire_none (hburst : 1 ≤ burst) : (acquire rate burst now none).1 = true := by
  have hone : 1 ≤ ((full burst now).refill rate burst now).tokens := by
    simpa [refill, full] using hburst
  simp [acquire, spend_of_le hone]

/-- A request that is denied leaves less than a token. -/
lemma tokens_lt_one_of_denied (h : (acquire rate burst now o).1 = false) :
    (acquire rate burst now o).2.tokens < 1 := by
  by_contra hle
  unfold acquire spend at h hle
  split at h
  · simp at h
  · rename_i hlt
    rw [if_neg hlt] at hle
    exact hlt (not_lt.mp hle)

/-- From a time on, two buckets answer alike and become the same. -/
def Alike (rate burst t : K) (o o' : Option (TokenBucket K)) : Prop :=
  ∀ now, t ≤ now → acquire rate burst now o = acquire rate burst now o'

variable {t : K} {o' o'' : Option (TokenBucket K)}

lemma Alike.refl : Alike rate burst t o o := fun _ _ => rfl

lemma Alike.symm (h : Alike rate burst t o o') : Alike rate burst t o' o :=
  fun now hnow => (h now hnow).symm

lemma Alike.trans (h : Alike rate burst t o o') (h' : Alike rate burst t o' o'') :
    Alike rate burst t o o'' :=
  fun now hnow => (h now hnow).trans (h' now hnow)

lemma Alike.mono {t' : K} (h : Alike rate burst t o o') (ht : t ≤ t') :
    Alike rate burst t' o o' :=
  fun now hnow => h now (ht.trans hnow)

section Ordered

variable [IsStrictOrderedRing K]

/-- What a request leaves, and the token it takes, against what was there. -/
lemma acquire_le (b : TokenBucket K) :
    (acquire rate burst now (some b)).2.tokens + (hi - now) * rate
        + (if (acquire rate burst now (some b)).1 then 1 else 0)
      ≤ b.tokens + (hi - b.last) * rate :=
  calc _ = (b.refill rate burst now).tokens + (hi - now) * rate := acquire_potential (some b)
    _ ≤ b.tokens + (now - b.last) * rate + (hi - now) * rate := by
        gcongr
        exact refill_tokens_le
    _ = b.tokens + (hi - b.last) * rate := by ring

/-- What a request leaves, and the token it takes, against the burst. -/
lemma acquire_le_burst (o : Option (TokenBucket K)) :
    (acquire rate burst now o).2.tokens + (hi - now) * rate
        + (if (acquire rate burst now o).1 then 1 else 0)
      ≤ burst + (hi - now) * rate := by
  rw [acquire_potential]
  gcongr
  exact refill_tokens_le_burst

/-- A token is only taken where there is one. -/
lemma acquire_tokens_of_allowed (h : (acquire rate burst now o).1 = true) :
    0 ≤ (acquire rate burst now o).2.tokens := by
  have hone := one_le_of_spend (b := (o.getD (full burst now)).refill rate burst now) h
  have heq : acquire rate burst now o = spend _ := rfl
  rw [heq, spend_of_le hone]
  exact sub_nonneg.mpr hone

variable (hi) in
/-- What a bucket still allows up to `hi` is at most what it would hold then, or what a refill from
the latest request `m` on gives: a loss fills the bucket only where that much has accrued. -/
theorem allowedUpTo_le (hrate : 0 < rate) (qs : List (Request K)) :
    ∀ (b : TokenBucket K) (m : K), Spaced (burst / rate) m qs →
      (allowedUpTo hi (answers rate burst (some b) qs) : K)
        ≤ max 0 (max (b.tokens + (hi - b.last) * rate) ((hi - m) * rate)) := by
  induction qs with
  | nil => exact fun b m _ => by simp [answers]
  | cons q qs ih =>
      intro b m hsp
      have hrest := ih (acquire rate burst q.now (q.finds (some b))).2 (max m q.now) hsp.2
      rw [acquire_last] at hrest
      have hm : (hi - max m q.now) * rate ≤ (hi - m) * rate :=
        mul_le_mul_of_nonneg_right (sub_le_sub_left (le_max_left _ _) _) hrate.le
      have hq : (hi - max m q.now) * rate ≤ (hi - q.now) * rate :=
        mul_le_mul_of_nonneg_right (sub_le_sub_left (le_max_right _ _) _) hrate.le
      have hstep : (acquire rate burst q.now (q.finds (some b))).2.tokens + (hi - q.now) * rate
          + (if (acquire rate burst q.now (q.finds (some b))).1 then 1 else 0)
            ≤ max (b.tokens + (hi - b.last) * rate) ((hi - m) * rate) := by
        cases hl : q.lost with
        | false =>
            rw [Request.finds, hl, if_neg Bool.false_ne_true]
            exact (acquire_le b).trans (le_max_left _ _)
        | true =>
            -- the burst of the new bucket has accrued since `m`
            have hacc : burst ≤ (q.now - m) * rate := by
              rw [← div_le_iff₀ hrate]
              linarith [hsp.1 hl]
            refine (acquire_le_burst _).trans (le_max_of_le_right ?_)
            calc burst + (hi - q.now) * rate ≤ (q.now - m) * rate + (hi - q.now) * rate := by
                  gcongr
              _ = (hi - m) * rate := by ring
      rw [answers_cons, allowedUpTo_cons]
      cases ha : (acquire rate burst q.now (q.finds (some b))).1 with
      | false =>
          rw [ha] at hstep
          simp only [Bool.false_and, Bool.false_eq_true, if_false, add_zero] at hstep ⊢
          exact hrest.trans (max_le_max le_rfl (max_le hstep (hm.trans (le_max_right _ _))))
      | true =>
          rw [ha, if_pos rfl] at hstep
          have hpos := acquire_tokens_of_allowed ha
          by_cases hin : q.now ≤ hi
          · -- the token was there at this time, so the bound on the rest is not the zero
            have hacc : 0 ≤ (hi - q.now) * rate := mul_nonneg (sub_nonneg.mpr hin) hrate.le
            simp only [hin, decide_true, Bool.and_self, if_true, Nat.cast_add, Nat.cast_one]
            refine le_max_of_le_right (le_trans ?_ hstep)
            gcongr
            exact hrest.trans (max_le (by linarith) (max_le le_rfl (by linarith)))
          · simp only [hin, decide_false, Bool.and_false, Bool.false_eq_true, if_false, add_zero]
            exact hrest.trans (max_le_max le_rfl
              (max_le (by linarith) (hm.trans (le_max_right _ _))))

/-- A run of requests is allowed at most the burst, and what accrued since its first request,
in whatever order the readings of the clock come. -/
theorem allowedUpTo_cons_le (hrate : 0 < rate) (hburst : 0 ≤ burst) (h : q.now ≤ hi)
    (o : Option (TokenBucket K)) (hsp : Spaced (burst / rate) q.now qs) :
    (allowedUpTo hi (answers rate burst o (q :: qs)) : K) ≤ burst + (hi - q.now) * rate := by
  have hacc : 0 ≤ (hi - q.now) * rate := mul_nonneg (sub_nonneg.mpr h) hrate.le
  have hrest := allowedUpTo_le hi hrate qs (acquire rate burst q.now (q.finds o)).2 q.now hsp
  have hstep : (acquire rate burst q.now (q.finds o)).2.tokens + (hi - q.now) * rate
      + (if (acquire rate burst q.now (q.finds o)).1 then 1 else 0) ≤ burst + (hi - q.now) * rate :=
    acquire_le_burst _
  rw [acquire_last] at hrest
  rw [answers_cons, allowedUpTo_cons]
  cases ha : (acquire rate burst q.now (q.finds o)).1 with
  | false =>
      rw [ha] at hstep
      simp only [Bool.false_and, Bool.false_eq_true, if_false, add_zero] at hstep ⊢
      exact hrest.trans (max_le (by linarith) (max_le hstep (by linarith)))
  | true =>
      rw [ha, if_pos rfl] at hstep
      have hpos := acquire_tokens_of_allowed ha
      simp only [h, decide_true, Bool.and_self, if_true, Nat.cast_add, Nat.cast_one]
      refine le_trans ?_ hstep
      gcongr
      exact hrest.trans (max_le (by linarith) (max_le le_rfl (by linarith)))

/-- In a window of the clock a bucket allows at most the burst, and what accrues over the window. -/
theorem allowedIn_le (hrate : 0 < rate) (hburst : 0 ≤ burst) (h : lo ≤ hi) {ts : List K}
    (hs : ts.Pairwise (· ≤ ·)) (o : Option (TokenBucket K)) :
    (allowedIn lo hi (answers rate burst o (ts.map Request.kept)) : K)
      ≤ burst + (hi - lo) * rate := by
  have hacc : 0 ≤ (hi - lo) * rate := mul_nonneg (sub_nonneg.mpr h) hrate.le
  induction ts generalizing o with
  | nil => simpa [answers, allowedIn] using add_nonneg hburst hacc
  | cons now ts ih =>
      rw [List.pairwise_cons] at hs
      rw [List.map_cons]
      rcases lt_or_ge now lo with hlo | hlo
      · rw [answers_cons, allowedIn_cons_of_lt hlo]
        exact ih hs.2 _
      rcases le_or_gt now hi with hhi | hhi
      · calc (allowedIn lo hi (answers rate burst o (.kept now :: ts.map Request.kept)) : K)
            ≤ allowedUpTo hi (answers rate burst o (.kept now :: ts.map Request.kept)) := by
              exact_mod_cast allowedIn_le_allowedUpTo _
          _ ≤ burst + (hi - now) * rate :=
            allowedUpTo_cons_le hrate hburst hhi o (spaced_kept _ ts now)
          _ ≤ burst + (hi - lo) * rate := by gcongr
      · rw [allowedIn_eq_zero, Nat.cast_zero]
        · exact add_nonneg hburst hacc
        · intro a ha hin
          have hmem : a.1 ∈ now :: ts := by
            have hmap := List.mem_map_of_mem (f := Prod.fst) ha
            rw [map_fst_answers, List.map_cons, List.map_map] at hmap
            simpa [Function.comp_def, Request.kept] using hmap
          have hgt : hi < a.1 := by
            rcases List.mem_cons.mp hmem with heq | hmem
            · exact heq ▸ hhi
            · exact hhi.trans_le (hs.1 _ hmem)
          exact absurd hin.2 (not_le.mpr hgt)

/-- A denied request that is repeated once the missing part of the token has accrued is allowed. -/
theorem acquire_after_wait (hrate : 0 < rate) (hburst : 1 ≤ burst)
    {later : K} (hwait : b.last + (1 - b.tokens) / rate ≤ later) :
    (acquire rate burst later (some b)).1 = true := by
  have hacc : 1 - b.tokens ≤ (later - b.last) * rate := by
    rw [← div_le_iff₀ hrate]
    linarith
  have hone : 1 ≤ (b.refill rate burst later).tokens := le_min hburst (by linarith)
  simp [acquire, spend_of_le hone]

/-- No request leaves a debt, as long as the clock does not go back. -/
lemma acquire_tokens_nonneg (hrate : 0 ≤ rate) (hburst : 0 ≤ burst)
    (hb : ∀ b ∈ o, 0 ≤ b.tokens ∧ b.last ≤ now) :
    0 ≤ (acquire rate burst now o).2.tokens := by
  set b := o.getD (full burst now) with hbo
  have hnn : 0 ≤ b.tokens ∧ b.last ≤ now := by
    cases o with
    | none => exact ⟨hburst, le_rfl⟩
    | some b => exact hb b rfl
  have hr : 0 ≤ (b.refill rate burst now).tokens :=
    le_min hburst (add_nonneg hnn.1 (mul_nonneg (sub_nonneg.mpr hnn.2) hrate))
  have heq : acquire rate burst now o = (b.refill rate burst now).spend := rfl
  rw [heq]
  rcases le_or_gt 1 (b.refill rate burst now).tokens with h | h
  · rw [spend_of_le h]
    exact sub_nonneg.mpr h
  · rw [spend_of_lt h]
    exact hr

/-- A bucket that has been idle for a full refill is as good as none. -/
theorem alike_none (hrate : 0 ≤ rate) (hb : 0 ≤ b.tokens)
    (hidle : burst ≤ (t - b.last) * rate) : Alike rate burst t (some b) none := by
  intro now hnow
  have hacc : burst ≤ b.tokens + (now - b.last) * rate :=
    calc burst ≤ (t - b.last) * rate := hidle
      _ ≤ (now - b.last) * rate := by gcongr
      _ ≤ b.tokens + (now - b.last) * rate := le_add_of_nonneg_left hb
  have hfull : b.refill rate burst now = (full burst now).refill rate burst now := by
    simp [refill, full, min_eq_left hacc]
  rw [acquire, acquire, Option.getD_some, Option.getD_none, hfull]

end Ordered

end TokenBucket

end GgRelay
