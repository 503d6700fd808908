import GgRelay.Lib.Lru
import GgRelay.Lib.System
import GgRelay.Session.Credentials
import Mathlib.Data.Finmap

/-!
The alert router: which terminal events match a rule, the cooldown of their keys, and the card that
is built and sent.

A call of `dispatch` runs without a pause up to `send_card`: the body of the cooldown's lock awaits
nothing, so the lock is never contended. The sends of several calls overlap, and each ends on its
own.

* `Router.Recorded`: the table holds, for each key that has not been evicted since, the time of
  the last card that was tried;
* `suppressed_iff`: when a suppressed alert was preceded by a card that did not fail.
-/

namespace GgRelay.AlertRouter

/-! ### Rules -/

/-- `DEFAULT_RULES`. -/
def defaultRules : List (String × List String) :=
  [("fail", ["always"]), ("cancel", ["timeout", "timeout_recovered", "paused_timeout"]),
    ("complete", ["tag=notify"])]

/-- The rules of the configuration over the defaults, key by key. -/
def mergedRules (rules : List (String × List String)) : Dict String (List String) :=
  (Dict.update ∅ defaultRules).update rules

/-- `_EVENT_TYPE_TO_RULE_KEY`. -/
def eventTypeToRuleKey : String → Option String
  | "session_failed" => some "fail"
  | "session_cancelled" => some "cancel"
  | "session_completed" => some "complete"
  | _ => none

/-- `str.strip`. -/
def strip (s : String) : String :=
  String.ofList ((s.toList.dropWhile isSpace).reverse.dropWhile isSpace).reverse

/-- One condition of a rule. -/
def conditionHolds (endReason : String) (tags : List String) (cond : String) : Bool :=
  if cond = "always" then true
  else if "tag=".isPrefixOf cond then
    let wanted := strip (cond.drop 4).toString
    decide (wanted ≠ "") && decide (wanted ∈ tags)
  else decide (cond = endReason)

/-- `_matches`. -/
def ruleMatches (rules : Dict String (List String)) (eventType endReason : String)
    (tags : List String) : Bool :=
  match eventTypeToRuleKey eventType with
  | none => false
  | some ruleKey => ((rules.lookup ruleKey).getD []).any (conditionHolds endReason tags)

/-! ### Cards -/

/-- What the card builder returns; only a `RenderedCard` has a channel. -/
inductive Card
  | rendered (channelId : Option String) (payload : String)
  | other (payload : String)
deriving DecidableEq, Repr

/-- The default channel, for a card without one. -/
def Card.withDefault (default : Option String) : Card → Card
  | .rendered none payload => .rendered (default.filter (· ≠ "")) payload
  | card => card

/-- The arguments of `dispatch`. -/
structure Alert where
  eventType : String
  sessionId : String
  owner : Option String
  tags : List String
  endReason : String
  event : String
deriving DecidableEq, Repr

/-- The arguments of `build_alert_card`. -/
structure CardRequest where
  event : String
  eventType : String
  sessionId : String
  owner : Option String
  endReason : String
  mentionOpenId : Option String
deriving DecidableEq, Repr

/-- The key of a cooldown. -/
structure Key where
  eventType : String
  owner : String
  endReason : String
deriving DecidableEq, Repr

/-- `owner or "anon"`. -/
def Alert.key (a : Alert) : Key :=
  ⟨a.eventType, (a.owner.filter (· ≠ "")).getD "anon", a.endReason⟩

/-! ### The router -/

/-- `LRU_CAP`. -/
def lruCap : ℕ := 1000

/-- What the router is built from; `wired` when it has both a backend and a card builder. -/
structure Config where
  rules : Dict String (List String)
  feishuUserMapping : Dict String String
  wired : Bool
  defaultChannel : Option String
  cooldownS : ℤ

/-- `resolve_mention`. -/
def Config.resolveMention (c : Config) (owner : Option String) : Option String :=
  (owner.filter (· ≠ "")).bind c.feishuUserMapping.lookup

/-- What the builder is asked for. -/
def Config.cardRequest (c : Config) (a : Alert) : CardRequest :=
  ⟨a.event, a.eventType, a.sessionId, a.owner, a.endReason, c.resolveMention a.owner⟩

/-- How far a card got. -/
inductive Status
  | sending (card : Card)
  | delivered (card : Card)
  | failed
deriving DecidableEq, Repr

/-- When an alert passed the cooldown; `epoch` counts the evictions of its key until then. -/
structure Stamp where
  key : Key
  time : ℚ
  epoch : ℕ
deriving DecidableEq, Repr

/-- An alert that passed the cooldown, and its card. -/
structure Send where
  stamp : Stamp
  status : Status
deriving DecidableEq, Repr

/-- The card was handed over, or is being sent. -/
def Send.Live (d : Send) : Prop := d.status ≠ .failed

instance (d : Send) : Decidable d.Live := inferInstanceAs (Decidable (_ ≠ _))

/-- A send ends: the backend took the card, or raised, or the call was cancelled. -/
def Send.finish (ok : Bool) (d : Send) : Send :=
  match d.status with
  | .sending card => { d with status := if ok then .delivered card else .failed }
  | _ => d

/-- The state of a router, with every alert that passed the cooldown so far, and every eviction. -/
structure Router where
  lastAlert : Dict Key ℚ
  sends : List Send
  evictions : List Key
  clock : ℚ

namespace Router

/-- A new router, at a time of the clock. -/
def new (clock : ℚ) : Router := ⟨∅, [], [], clock⟩

variable (c : Config)

/-- The key is in its cooldown. -/
def InCooldown (s : Router) (key : Key) (now : ℚ) : Prop :=
  ∃ last ∈ s.lastAlert.lookup key, now - last < c.cooldownS

instance (s : Router) (key : Key) (now : ℚ) : Decidable (s.InCooldown c key now) :=
  inferInstanceAs (Decidable (∃ last ∈ s.lastAlert.lookup key, now - last < c.cooldownS))

/-- The key that has to go before `key` comes in. -/
def evicted (s : Router) (key : Key) : Option Key :=
  if key ∈ s.lastAlert then none else s.lastAlert.overflow lruCap

/-- `_cooldown_check`: the table as it is left; `none` when the alert has to be skipped. -/
def cooldownCheck (key : Key) (now : ℚ) (s : Router) : Option Router :=
  if s.InCooldown c key now then none
  else
    let room := if key ∈ s.lastAlert then s.lastAlert else s.lastAlert.makeRoom lruCap
    some { s with
      lastAlert := room.insert key now
      evictions := s.evictions ++ (s.evicted key).toList }

/-- What becomes of the card of an alert that passed the cooldown: `build` is what the builder does
this time, `none` when it raises. -/
def firstStatus (a : Alert) (build : CardRequest → Option Card) : Status :=
  if c.wired then
    match build (c.cardRequest a) with
    | some card => .sending (card.withDefault c.defaultChannel)
    | none => .failed
  else .failed

/-- `dispatch` up to the call of `send_card`. -/
def dispatch (a : Alert) (now : ℚ) (build : CardRequest → Option Card) (s : Router) : Router :=
  if ruleMatches c.rules a.eventType a.endReason a.tags then
    match s.cooldownCheck c a.key now with
    | none => { s with clock := now }
    | some s₁ =>
        let stamp := ⟨a.key, now, s₁.evictions.count a.key⟩
        { s₁ with sends := s.sends ++ [⟨stamp, firstStatus c a build⟩], clock := now }
  else { s with clock := now }

/-- What happens to a router. -/
inductive Label
  | dispatch (a : Alert) (now : ℚ) (build : CardRequest → Option Card)
  | finish (i : ℕ) (ok : Bool) (now : ℚ)

/-- The reading of the monotonic clock. -/
def Label.now : Label → ℚ
  | .dispatch _ now _ => now
  | .finish _ _ now => now

/-- One step, on a clock that does not go back. -/
def step (s : Router) (l : Label) : Option Router :=
  if s.clock ≤ l.now then
    some <| match l with
      | .dispatch a now build => s.dispatch c a now build
      | .finish i ok now => { s with sends := s.sends.modify i (Send.finish ok), clock := now }
  else none

/-- A router under any calls. -/
def system : System Router Label where
  init s := ∃ clock, s = new clock
  step := step c

variable {c} {s : Router} {k key : Key} {now : ℚ}

/-! ### What the table holds -/

/-- When the alerts passed the cooldown. -/
def stamps (s : Router) : List Stamp := s.sends.map Send.stamp

/-- The stamps of a key. -/
def stampsOf (s : Router) (k : Key) : List Stamp := s.stamps.filter fun x => x.key = k

/-- How often a key has been evicted. -/
def epoch (s : Router) (k : Key) : ℕ := s.evictions.count k

/-- The table holds, for each key that has not been evicted since, the time of the last alert that
passed; and between two evictions of its key alerts pass a cooldown apart. -/
structure Recorded (c : Config) (s : Router) : Prop where
  cap : s.lastAlert.keys.length ≤ lruCap
  stamped : ∀ k, ∀ t ∈ s.lastAlert.lookup k,
    ∃ x ∈ (s.stampsOf k).getLast?, x.time = t ∧ x.epoch = s.epoch k
  kept : ∀ x ∈ s.stamps, x.epoch = s.epoch x.key → ∃ t ∈ s.lastAlert.lookup x.key, x.time ≤ t
  epochs : ∀ x ∈ s.stamps, x.epoch ≤ s.epoch x.key
  past : ∀ x ∈ s.stamps, x.time ≤ s.clock
  spaced : s.stamps.Pairwise fun x y =>
    x.key = y.key → x.epoch = y.epoch → (c.cooldownS : ℚ) ≤ y.time - x.time

lemma recorded_new (c : Config) (clock : ℚ) : Recorded c (new clock) where
  cap := Nat.zero_le _
  stamped _ _ ht := absurd ht (by simp [new])
  kept _ hx := absurd hx List.not_mem_nil
  epochs _ hx := absurd hx List.not_mem_nil
  past _ hx := absurd hx List.not_mem_nil
  spaced := List.Pairwise.nil

/-- Time passes, and a send may end. -/
lemma Recorded.later (h : Recorded c s) (hnow : s.clock ≤ now) {sends : List Send}
    (hsends : sends.map Send.stamp = s.stamps) :
    Recorded c { s with sends := sends, clock := now } := by
  have hstamps : stamps { s with sends := sends, clock := now } = s.stamps := hsends
  refine ⟨h.cap, ?_, ?_, ?_, ?_, ?_⟩
  · simp only [stampsOf, hstamps]
    exact h.stamped
  · rw [hstamps]
    exact h.kept
  · rw [hstamps]
    exact h.epochs
  · rw [hstamps]
    exact fun x hx => (h.past x hx).trans hnow
  · rw [hstamps]
    exact h.spaced

lemma finish_stamp (ok : Bool) (d : Send) : (d.finish ok).stamp = d.stamp := by
  unfold Send.finish
  split <;> rfl

lemma map_stamp_modify (i : ℕ) (ok : Bool) (ds : List Send) :
    (ds.modify i (Send.finish ok)).map Send.stamp = ds.map Send.stamp := by
  induction ds generalizing i with
  | nil => simp
  | cons d ds ih =>
      cases i with
      | zero => simp [finish_stamp]
      | succ i => simp [ih]

lemma cooldownCheck_eq_none (h : s.InCooldown c key now) : s.cooldownCheck c key now = none :=
  if_pos h

/-- The table in which a key is recorded. -/
def room (s : Router) (key : Key) : Dict Key ℚ :=
  if key ∈ s.lastAlert then s.lastAlert else s.lastAlert.makeRoom lruCap

lemma cooldownCheck_of_not (h : ¬ s.InCooldown c key now) :
    s.cooldownCheck c key now = some { s with
      lastAlert := (s.room key).insert key now
      evictions := s.evictions ++ (s.evicted key).toList } :=
  if_neg h

lemma evicted_ne (s : Router) (key : Key) : s.evicted key ≠ some key := by
  unfold evicted
  split
  · simp
  · rename_i hmem
    exact fun h => hmem (Dict.mem_of_overflow h)

lemma lookup_room (h : s.evicted key ≠ some k) :
    (s.room key).lookup k = s.lastAlert.lookup k := by
  unfold room
  unfold evicted at h
  split
  · rfl
  · rename_i hmem
    rw [if_neg hmem] at h
    exact Dict.lookup_makeRoom h

lemma lookup_room_of_evicted (h : s.evicted key = some k) : (s.room key).lookup k = none := by
  unfold room
  unfold evicted at h
  split at h
  · simp at h
  · rename_i hmem
    rw [if_neg hmem]
    exact Dict.lookup_makeRoom_of_overflow h

/-- An alert passes, and its key is recorded. -/
def record (s : Router) (key : Key) (now : ℚ) (status : Status) : Router where
  lastAlert := (s.room key).insert key now
  sends := s.sends ++ [⟨⟨key, now, s.epoch key⟩, status⟩]
  evictions := s.evictions ++ (s.evicted key).toList
  clock := now

lemma epoch_record (status : Status) : (s.record key now status).epoch k
    = s.epoch k + if s.evicted key = some k then 1 else 0 := by
  rw [epoch, record, List.count_append, epoch]
  cases s.evicted key with
  | none => simp
  | some victim =>
      by_cases h : victim = k <;> simp [h]

lemma epoch_record_self (status : Status) :
    (s.record key now status).epoch key = s.epoch key := by
  rw [epoch_record, if_neg (evicted_ne s key), add_zero]

lemma stamps_record (status : Status) :
    (s.record key now status).stamps = s.stamps ++ [⟨key, now, s.epoch key⟩] := by
  rw [stamps, record, List.map_append]
  rfl

/-- What `dispatch` does, in cases. -/
lemma dispatch_cases (a : Alert) (now : ℚ) (build : CardRequest → Option Card) (s : Router) :
    s.dispatch c a now build = { s with clock := now }
      ∨ ¬ s.InCooldown c a.key now
        ∧ s.dispatch c a now build = s.record a.key now (firstStatus c a build) := by
  unfold dispatch
  split
  · by_cases h : s.InCooldown c a.key now
    · rw [cooldownCheck_eq_none h]
      exact .inl rfl
    · rw [cooldownCheck_of_not h]
      have hepoch : (s.record a.key now (firstStatus c a build)).epoch a.key = s.epoch a.key :=
        epoch_record_self _
      simp only [epoch, record] at hepoch
      refine .inr ⟨h, ?_⟩
      simp only [hepoch, record, epoch]
  · exact .inl rfl

lemma lookup_record_self (status : Status) :
    (s.record key now status).lastAlert.lookup key = some now :=
  AList.lookup_insert _

lemma lookup_record_ne (hk : k ≠ key) (status : Status) :
    (s.record key now status).lastAlert.lookup k = (s.room key).lookup k :=
  AList.lookup_insert_ne hk

lemma Recorded.record (h : Recorded c s) (hnow : s.clock ≤ now) (hpass : ¬ s.InCooldown c key now)
    (status : Status) : Recorded c (s.record key now status) := by
  have hpast : ∀ x ∈ s.stamps, x.time ≤ now := fun x hx => (h.past x hx).trans hnow
  refine ⟨?_, fun k t ht => ?_, fun x hx hepoch => ?_, fun x hx => ?_, fun x hx => ?_, ?_⟩
  · refine Dict.length_insert_le ?_
    unfold room
    split
    · rename_i hmem
      exact .inl ⟨hmem, h.cap⟩
    · exact .inr (Dict.length_makeRoom_lt (by decide) h.cap)
  · rw [stampsOf, stamps_record, List.filter_append]
    by_cases hk : k = key
    · subst hk
      rw [lookup_record_self] at ht
      rw [epoch_record_self]
      exact ⟨⟨k, now, s.epoch k⟩, by simp, Option.mem_some_iff.mp ht, rfl⟩
    · rw [lookup_record_ne hk] at ht
      have hkept : s.evicted key ≠ some k := by
        intro hv
        rw [lookup_room_of_evicted hv] at ht
        exact absurd ht (Option.not_mem_none _)
      rw [lookup_room hkept] at ht
      rw [epoch_record, if_neg hkept, add_zero]
      have hother : ([⟨key, now, s.epoch key⟩] : List Stamp).filter (fun x => x.key = k) = [] := by
        simp [Ne.symm hk]
      rw [hother, List.append_nil]
      exact h.stamped k t ht
  · rw [stamps_record, List.mem_append, List.mem_singleton] at hx
    by_cases hk : x.key = key
    · refine ⟨now, by rw [hk, lookup_record_self]; rfl, ?_⟩
      rcases hx with hx | rfl
      · exact hpast x hx
      · exact le_rfl
    · have hx : x ∈ s.stamps := hx.resolve_right fun heq => hk (heq ▸ rfl)
      rw [epoch_record] at hepoch
      -- an eviction of the key would have moved its epoch on
      have hkept : s.evicted key ≠ some x.key := by
        intro hv
        rw [if_pos hv] at hepoch
        have := h.epochs x hx
        omega
      rw [if_neg hkept, add_zero] at hepoch
      rw [lookup_record_ne hk, lookup_room hkept]
      exact h.kept x hx hepoch
  · rw [stamps_record, List.mem_append, List.mem_singleton] at hx
    rcases hx with hx | rfl
    · rw [epoch_record]
      exact (h.epochs x hx).trans (Nat.le_add_right _ _)
    · rw [epoch_record_self]
  · rw [stamps_record, List.mem_append, List.mem_singleton] at hx
    rcases hx with hx | rfl
    · exact hpast x hx
    · exact le_rfl
  · rw [stamps_record, List.pairwise_append]
    refine ⟨h.spaced, List.pairwise_singleton _ _, fun x hx y hy => ?_⟩
    obtain rfl := List.mem_singleton.mp hy
    rintro rfl hepoch
    obtain ⟨t, ht, hle⟩ := h.kept x hx hepoch
    have hgap : (c.cooldownS : ℚ) ≤ now - t := not_lt.mp fun hlt => hpass ⟨t, ht, hlt⟩
    linarith

lemma Recorded.dispatch (h : Recorded c s) (hnow : s.clock ≤ now) (a : Alert)
    (build : CardRequest → Option Card) : Recorded c (s.dispatch c a now build) := by
  rcases dispatch_cases (c := c) a now build s with heq | ⟨hpass, heq⟩
  · rw [heq]
    exact h.later hnow rfl
  · rw [heq]
    exact h.record hnow hpass _

/-- Every router has recorded what it let pass. -/
theorem recorded_of_reachable (h : (system c).Reachable s) : Recorded c s := by
  refine h.invariant (fun s ⟨clock, hs⟩ => hs ▸ recorded_new c clock) fun s l t hrec _ hstep => ?_
  simp only [system, step] at hstep
  split at hstep
  · rename_i hnow
    obtain rfl := Option.some.inj hstep
    cases l with
    | dispatch a now build => exact hrec.dispatch hnow a build
    | finish i ok now => exact hrec.later hnow (map_stamp_modify i ok s.sends)
  · simp at hstep

/-! ### Suppressed alerts -/

/-- The alert matches a rule, and the cooldown of its key swallows it. -/
def Suppressed (c : Config) (s : Router) (a : Alert) (now : ℚ) : Prop :=
  ruleMatches c.rules a.eventType a.endReason a.tags = true ∧ s.InCooldown c a.key now

/-- A card of the key was handed over, or is being sent, less than the cooldown ago. -/
def Justified (c : Config) (s : Router) (k : Key) (now : ℚ) : Prop :=
  ∃ d ∈ s.sends, d.stamp.key = k ∧ d.Live ∧ now - d.stamp.time < c.cooldownS

/-- The cards of a key. -/
def sendsOf (s : Router) (k : Key) : List Send := s.sends.filter fun d => d.stamp.key = k

/-- The last alert of the key that passed the cooldown did not fail. -/
def LastLive (s : Router) (k : Key) : Prop := ∃ d ∈ (s.sendsOf k).getLast?, d.Live

/-- Before the key was last evicted, less than the cooldown ago, there was one that did not fail. -/
def LiveBeforeEviction (c : Config) (s : Router) (k : Key) (now : ℚ) : Prop :=
  ∃ d ∈ s.sends, d.stamp.key = k ∧ d.stamp.epoch < s.epoch k ∧ d.Live
    ∧ now - d.stamp.time < c.cooldownS

lemma map_stamp_sendsOf (s : Router) (k : Key) :
    (s.sendsOf k).map Send.stamp = s.stampsOf k := by
  rw [sendsOf, stampsOf, stamps, List.filter_map]
  rfl

/-- In its cooldown, a key has a last card, tried when the table says. -/
lemma Recorded.last (h : Recorded c s) (hin : s.InCooldown c k now) :
    ∃ d ds, s.sendsOf k = ds ++ [d] ∧ d.stamp.epoch = s.epoch k
      ∧ now - d.stamp.time < c.cooldownS := by
  obtain ⟨last, hlast, hlt⟩ := hin
  obtain ⟨x, hx, rfl, hepoch⟩ := h.stamped k last hlast
  rw [← map_stamp_sendsOf, List.getLast?_map] at hx
  obtain ⟨d, hd, rfl⟩ := Option.map_eq_some_iff.mp hx
  obtain ⟨ds, hds⟩ := List.getLast?_eq_some_iff.mp hd
  exact ⟨d, ds, hds, hepoch, hlt⟩

lemma mem_sendsOf {d : Send} : d ∈ s.sendsOf k ↔ d ∈ s.sends ∧ d.stamp.key = k := by
  simp [sendsOf]

/-- An alert is suppressed for a card that did not fail, unless the last card of its key failed, and
none that went before an eviction of the key stands in for it. -/
theorem suppressed_iff (h : Recorded c s) (hnow : s.clock ≤ now) (hin : s.InCooldown c k now) :
    Justified c s k now ↔ LastLive s k ∨ LiveBeforeEviction c s k now := by
  obtain ⟨last, ds, hds, hepoch, hlt⟩ := h.last hin
  have hlast : last ∈ s.sendsOf k := hds ▸ List.mem_append_right _ (List.mem_singleton_self _)
  have hgetLast : (s.sendsOf k).getLast? = some last := by rw [hds, List.getLast?_concat]
  constructor
  · rintro ⟨d, hd, hkey, hlive, hwin⟩
    have hle : d.stamp.epoch ≤ s.epoch k := by
      have := h.epochs d.stamp (List.mem_map_of_mem hd)
      rwa [hkey] at this
    rcases hle.lt_or_eq with hbefore | heq
    · exact .inr ⟨d, hd, hkey, hbefore, hlive, hwin⟩
    · refine .inl ⟨last, hgetLast, ?_⟩
      -- of the cards since the last eviction, only the last one is less than the cooldown old
      have hmem : d ∈ ds ++ [last] := hds ▸ mem_sendsOf.mpr ⟨hd, hkey⟩
      rcases List.mem_append.mp hmem with hearlier | hd
      · exfalso
        have hspaced : (s.stampsOf k).Pairwise fun x y =>
            x.key = y.key → x.epoch = y.epoch → (c.cooldownS : ℚ) ≤ y.time - x.time :=
          h.spaced.filter _
        rw [← map_stamp_sendsOf, hds, List.map_append, List.pairwise_append] at hspaced
        have hgap := hspaced.2.2 d.stamp (List.mem_map_of_mem hearlier) last.stamp
          (List.mem_map_of_mem (List.mem_singleton_self _))
          (hkey.trans (mem_sendsOf.mp hlast).2.symm) (heq.trans hepoch.symm)
        have hpast := h.past last.stamp (List.mem_map_of_mem (mem_sendsOf.mp hlast).1)
        linarith
      · exact List.mem_singleton.mp hd ▸ hlive
  · rintro (⟨d, hd, hlive⟩ | ⟨d, hd, hkey, -, hlive, hwin⟩)
    · obtain rfl : last = d := Option.some.inj (hgetLast.symm.trans hd)
      exact ⟨last, (mem_sendsOf.mp hlast).1, (mem_sendsOf.mp hlast).2, hlive, hlt⟩
    · exact ⟨d, hd, hkey, hlive, hwin⟩

/-! ### What the cooldown promises -/

/-- The cards of a key that were handed to the backend within a cooldown from `t` on, and taken by
it, between two evictions of the key. -/
def deliveredIn (c : Config) (s : Router) (k : Key) (epoch : ℕ) (t : ℚ) : ℕ :=
  s.sends.countP fun d => d.stamp.key = k && d.stamp.epoch = epoch
    && (match d.status with | .delivered _ => true | _ => false)
    && t ≤ d.stamp.time && d.stamp.time < t + c.cooldownS

/-- An alert that matches is suppressed only for a card less than the cooldown before that was handed
over or is being sent; in a cooldown at most one card of a key is delivered, as long as the key is
not evicted; and the table stays under its cap. -/
structure Sound (c : Config) (s : Router) : Prop where
  suppressed : ∀ a now, s.clock ≤ now → Suppressed c s a now → Justified c s a.key now
  delivered : ∀ k epoch t, deliveredIn c s k epoch t ≤ 1
  cap : s.lastAlert.keys.length ≤ lruCap

/-- Of elements that are kept apart at most one satisfies what two cannot satisfy together. -/
lemma countP_le_one {α : Type*} {R : α → α → Prop} {p : α → Bool} {l : List α} (h : l.Pairwise R)
    (hp : ∀ x y, p x = true → p y = true → ¬ R x y) : l.countP p ≤ 1 := by
  have hf := h.filter p
  rw [List.countP_eq_length_filter]
  match hl : l.filter p with
  | [] => simp
  | [_] => simp
  | x :: y :: _ =>
      rw [hl, List.pairwise_cons] at hf
      have hmem : ∀ z ∈ l.filter p, p z = true := fun z hz => (List.mem_filter.mp hz).2
      rw [hl] at hmem
      exact absurd (hf.1 y List.mem_cons_self) (hp x y (hmem x (by simp)) (hmem y (by simp)))

lemma Recorded.deliveredIn_le (h : Recorded c s) (k : Key) (epoch : ℕ) (t : ℚ) :
    deliveredIn c s k epoch t ≤ 1 := by
  have hspaced := h.spaced
  rw [stamps, List.pairwise_map] at hspaced
  refine countP_le_one hspaced fun x y hx hy hgap => ?_
  simp only [Bool.and_eq_true, decide_eq_true_eq] at hx hy
  have := hgap (hx.1.1.1.1.trans hy.1.1.1.1.symm) (hx.1.1.1.2.trans hy.1.1.1.2.symm)
  have hlo := hx.1.2
  have hhi := hy.2
  linarith

/-- In every state of every run the cooldown keeps its promises just when no alert is about to be
suppressed by a card that failed. -/
theorem sound_iff (c : Config) {s : Router} (h : (system c).Reachable s) : Sound c s ↔
    ∀ a now, s.clock ≤ now → Suppressed c s a now →
      LastLive s a.key ∨ LiveBeforeEviction c s a.key now := by
  have hrec := recorded_of_reachable h
  constructor
  · intro hsound a now hnow hsup
    exact (suppressed_iff hrec hnow hsup.2).mp (hsound.suppressed a now hnow hsup)
  · intro hlive
    exact ⟨fun a now hnow hsup => (suppressed_iff hrec hnow hsup.2).mpr (hlive a now hnow hsup),
      hrec.deliveredIn_le, hrec.cap⟩

/-- The default rules and cooldown, with a backend and a card builder. -/
def defaultConfig : Config := ⟨mergedRules [], ∅, true, none, 300⟩

/-- A session of alice fails. -/
def failure : Alert := ⟨"session_failed", "s-1", some "alice", [], "http:502", "event"⟩

/-- The key of the failure. -/
def failureKey : Key := ⟨"session_failed", "alice", "http:502"⟩

/-- After the card of one failure. -/
def afterFailure (status : Status) (clock : ℚ) : Router :=
  ⟨AList.singleton failureKey 0, [⟨⟨failureKey, 0, 0⟩, status⟩], [], clock⟩

lemma reachable_afterFailure (ok : Bool) : (system defaultConfig).Reachable
    (afterFailure (if ok then .delivered (.rendered none "card") else .failed) 1) := by
  have hrun : (system defaultConfig).run (new 0)
      [.dispatch failure 0 fun _ => some (.rendered none "card"), .finish 0 ok 1]
        = some (afterFailure (if ok then .delivered (.rendered none "card") else .failed) 1) := by
    cases ok <;> rfl
  exact System.Reachable.of_run (.init ⟨0, rfl⟩) hrun

/-- A second failure within the cooldown, when the first one's card was delivered. -/
theorem sound_iff_delivered :
    Sound defaultConfig (afterFailure (.delivered (.rendered none "card")) 1) := by
  refine (sound_iff defaultConfig (reachable_afterFailure true)).mpr fun a now _ hsup => .inl ?_
  obtain ⟨-, last, hlast, -⟩ := hsup
  have hkey : a.key = failureKey := by
    by_contra hne
    have hnone : (afterFailure (.delivered (.rendered none "card")) 1).lastAlert.lookup a.key
        = none := by
      simp [afterFailure, AList.lookup_eq_none, AList.mem_keys, AList.singleton, hne]
    exact Option.not_mem_none last (hnone ▸ hlast)
  rw [hkey]
  exact ⟨_, rfl, by decide⟩

/-- The backend raises on the card of a failure, and a second later the next failure of the same key
is suppressed. -/
theorem failed_send_silences : ¬ ∀ (c : Config) (s : Router), (system c).Reachable s →
    Sound c s := by
  intro hall
  have hsound := hall defaultConfig _ (reachable_afterFailure false)
  obtain ⟨d, hd, -, hlive, -⟩ := hsound.suppressed failure 2 (by decide +kernel)
    ⟨by decide +kernel, 0, rfl, by decide +kernel⟩
  rw [List.mem_singleton.mp hd] at hlive
  exact hlive rfl

end Router

end GgRelay.AlertRouter
