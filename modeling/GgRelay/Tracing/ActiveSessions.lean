import GgRelay.Lib.Dict
import GgRelay.Store.SessionRow

/-!
The gauge of active sessions and the histogram of their durations
(`tracing/metrics_subscriber.py`, `_on_state`).

* `onState` is the handler, on the instruments and on the start times; the clock is any type with a
  difference;
* `Conforms` says that each session follows its lifecycle, `latest` where it is, and `lifetime` how
  long it ran;
* `onState_run` is what any run that conforms comes to: the gauge is ahead of the running sessions
  by the pauses there were;
* `gauge_exact_iff` says when the instruments are exact all the time, `pause_leaves_gauge` is a run
  in which they are not.
-/

namespace GgRelay.MetricsSubscriber

/-- The values of `SessionState`. -/
def stateValue : SessionState → String
  | .queued => "queued"
  | .running => "running"
  | .paused => "paused"
  | .completed => "completed"
  | .failed => "failed"
  | .cancelled => "cancelled"
  | .interrupted => "interrupted"

/-- `_RUNNING_STATE`. -/
def runningState : String := "running"

/-- `_TERMINAL_STATES`. -/
def terminalStates : List String := ["completed", "failed", "interrupted", "cancelled"]

/-- What the handler reads of a `SessionStateChanged`. -/
structure SessionStateChanged where
  sessionId : String
  fromState : String
  toState : String
  deriving DecidableEq, Repr

/-- The instruments that `_on_state` drives, and `_start_times`. -/
structure Instruments (τ : Type) where
  /-- `SESSION_STATE_CHANGES`, by label -/
  stateChanges : Dict String ℕ := ∅
  /-- `SESSIONS_ACTIVE` -/
  sessionsActive : ℤ := 0
  /-- what `SESSION_DURATION` has observed -/
  sessionDuration : List τ := []
  startTimes : Dict String τ := ∅

variable {τ : Type} [Sub τ]

/-- `_on_state`, at the time `now`. -/
def onState (m : Instruments τ) (ev : SessionStateChanged) (now : τ) : Instruments τ :=
  let m := { m with
    stateChanges :=
      m.stateChanges.insert ev.toState ((m.stateChanges.lookup ev.toState).getD 0 + 1) }
  let sid := ev.sessionId
  if ev.toState = runningState then
    let m := { m with sessionsActive := m.sessionsActive + 1 }
    if sid ≠ "" ∧ sid ∉ m.startTimes then { m with startTimes := m.startTimes.insert sid now }
    else m
  else if ev.toState ∈ terminalStates then
    let m :=
      if ev.fromState = runningState then { m with sessionsActive := m.sessionsActive - 1 } else m
    if sid ≠ "" then
      let m' := { m with startTimes := m.startTimes.erase sid }
      match m.startTimes.lookup sid with
      | some started => { m' with sessionDuration := m.sessionDuration ++ [now - started] }
      | none => m'
    else m
  else m

/-! ### The lifecycle -/

/-- A session moves from a state to another, at a time. -/
structure Transition (τ : Type) where
  sessionId : String
  source : SessionState
  target : SessionState
  time : τ
  deriving DecidableEq, Repr

variable (t : Transition τ) (ts : List (Transition τ)) (sid : String)

/-- The event of a transition. -/
def Transition.event : SessionStateChanged :=
  ⟨t.sessionId, stateValue t.source, stateValue t.target⟩

/-- The instruments after these transitions. -/
def instruments : Instruments τ := ts.foldl (fun m t => onState m t.event t.time) {}

/-- The moves of the lifecycle. -/
inductive Next : SessionState → SessionState → Prop
  | start : Next .queued .running
  | pause : Next .running .paused
  | resume : Next .paused .running
  | finish {source target : SessionState} : ¬source.Terminal → target.Terminal → Next source target

/-- The latest state of a session; one without a transition is queued. -/
def latest : SessionState :=
  ts.foldl (fun st t => if t.sessionId = sid then t.target else st) .queued

/-- Each session follows its lifecycle. -/
def Conforms : Prop :=
  ∀ before t, before ++ [t] <+: ts →
    latest before t.sessionId = t.source ∧ Next t.source t.target

/-- The time of the first transition of a session to a state like this. -/
def timeOf (p : SessionState → Bool) : Option τ :=
  (ts.find? fun t => decide (t.sessionId = sid) && p t.target).map Transition.time

/-- When a session started. -/
def startTime : Option τ := timeOf ts sid fun st => st = .running

/-- When a session ended. -/
def endTime : Option τ := timeOf ts sid fun st => st.Terminal

/-- How long a session took, if it started and ended. -/
def lifetime : Option τ :=
  (startTime ts sid).bind fun started => (endTime ts sid).map fun ended => ended - started

/-- The sessions that had a transition. -/
def sessions : Finset String := (ts.map Transition.sessionId).toFinset

/-- How many sessions are running. -/
def running : ℕ := ((sessions ts).filter fun sid => latest ts sid = .running).card

/-- How many pauses there were. -/
def pauses : ℕ := ts.countP fun t => t.target = .paused

/-- **The instruments are exact.** -/
structure Exact (m : Instruments τ) : Prop where
  active : m.sessionsActive = running ts
  /-- one observation for each session that started and ended -/
  durations : (m.sessionDuration : Multiset τ) = (sessions ts).val.filterMap (lifetime ts)
  /-- only for sessions that started and have not ended -/
  starts : ∀ sid ∈ m.startTimes, startTime ts sid ≠ none ∧ endTime ts sid = none

/-! ### One more transition -/

variable {t : Transition τ} {ts : List (Transition τ)} {sid : String}

lemma instruments_concat :
    instruments (ts ++ [t]) = onState (instruments ts) t.event t.time :=
  List.foldl_concat _ _ _ _

omit [Sub τ] in
lemma latest_concat :
    latest (ts ++ [t]) sid = if t.sessionId = sid then t.target else latest ts sid :=
  List.foldl_concat _ _ _ _

omit [Sub τ] in
lemma timeOf_concat (p : SessionState → Bool) :
    timeOf (ts ++ [t]) sid p
      = (timeOf ts sid p).or (if t.sessionId = sid ∧ p t.target then some t.time else none) := by
  rw [timeOf, List.find?_append, Option.map_or, ← timeOf]
  congr 1
  by_cases h : t.sessionId = sid ∧ p t.target = true <;> simp [h]

omit [Sub τ] in
lemma sessions_concat : sessions (ts ++ [t]) = insert t.sessionId (sessions ts) := by
  ext sid
  simp [sessions]

omit [Sub τ] in
lemma pauses_concat : pauses (ts ++ [t]) = pauses ts + if t.target = .paused then 1 else 0 := by
  rw [pauses, List.countP_append, ← pauses]
  by_cases h : t.target = .paused <;> simp [h]

lemma Next.source_not_terminal {source target : SessionState} (h : Next source target) :
    ¬source.Terminal := by
  cases h with
  | start => exact id
  | pause => exact id
  | resume => exact id
  | finish hsource _ => exact hsource

omit [Sub τ] in
lemma Conforms.of_init {before : List (Transition τ)} (h : Conforms ts)
    (hbefore : before <+: ts) : Conforms before :=
  fun _ _ ht => h _ _ (ht.trans hbefore)

omit [Sub τ] in
lemma Conforms.of_concat (h : Conforms (ts ++ [t])) :
    Conforms ts ∧ latest ts t.sessionId = t.source ∧ Next t.source t.target :=
  ⟨h.of_init (List.prefix_append _ _), h _ _ (List.prefix_refl _)⟩

omit [Sub τ] in
lemma conforms_nil : Conforms ([] : List (Transition τ)) := fun before t h =>
  absurd (List.prefix_nil.mp h) (List.append_ne_nil_of_right_ne_nil before (List.cons_ne_nil t []))

omit [Sub τ] in
lemma Conforms.concat (h : Conforms ts) (hsource : latest ts t.sessionId = t.source)
    (hnext : Next t.source t.target) : Conforms (ts ++ [t]) := by
  intro before t' hinit
  rcases List.prefix_concat_iff.mp hinit with heq | hinit
  · obtain ⟨rfl, ht⟩ := List.append_inj' heq rfl
    obtain rfl := List.singleton_inj.mp ht
    exact ⟨hsource, hnext⟩
  · exact h _ _ hinit

omit [Sub τ] in
lemma mem_sessions_of_latest (h : latest ts sid ≠ .queued) : sid ∈ sessions ts := by
  induction ts using List.reverseRecOn with
  | nil => exact absurd rfl h
  | append_singleton ts t ih =>
      rw [sessions_concat, Finset.mem_insert]
      rw [latest_concat] at h
      split_ifs at h with ht
      · exact Or.inl ht.symm
      · exact Or.inr (ih h)

omit [Sub τ] in
/-- Only what is terminal has ended. -/
lemma endTime_eq_none (h : Conforms ts) (hlatest : ¬(latest ts sid).Terminal) :
    endTime ts sid = none := by
  induction ts using List.reverseRecOn with
  | nil => rfl
  | append_singleton ts t ih =>
      obtain ⟨hts, hsource, hnext⟩ := h.of_concat
      rw [latest_concat] at hlatest
      rw [endTime, timeOf_concat, ← endTime]
      split_ifs at hlatest with ht
      · have hsource : ¬(latest ts sid).Terminal := by
          rw [← ht, hsource]
          exact hnext.source_not_terminal
        simp [ih hts hsource, hlatest]
      · simp [ih hts hlatest, ht]

/-! ### Counting the sessions -/

/-- A count after a change at one element. -/
lemma card_filter_insert {S : Finset String} {p q : String → Prop} [DecidablePred p]
    [DecidablePred q] (a : String) (hp : p a → a ∈ S) (h : ∀ b ≠ a, q b ↔ p b) :
    ((insert a S).filter q).card + (if p a then 1 else 0)
      = (S.filter p).card + if q a then 1 else 0 := by
  have hrest : ∑ b ∈ S.erase a, (if q b then 1 else 0) = ∑ b ∈ S.erase a, if p b then 1 else 0 :=
    Finset.sum_congr rfl fun b hb => by simp only [h b (Finset.ne_of_mem_erase hb)]
  have hold : ∑ b ∈ S, (if p b then 1 else 0)
      = (if p a then 1 else 0) + ∑ b ∈ S.erase a, if p b then 1 else 0 := by
    by_cases ha : a ∈ S
    · exact (Finset.add_sum_erase S _ ha).symm
    · rw [Finset.erase_eq_of_notMem ha, if_neg fun hpa => ha (hp hpa), zero_add]
  have hnew : ∑ b ∈ insert a S, (if q b then 1 else 0)
      = (if q a then 1 else 0) + ∑ b ∈ S.erase a, if q b then 1 else 0 := by
    rw [← Finset.add_sum_erase _ _ (Finset.mem_insert_self a S), Finset.erase_insert_eq_erase]
  rw [Finset.card_filter, Finset.card_filter, hold, hnew, hrest]
  omega

omit [Sub τ] in
lemma filterMap_congr {S : Multiset String} {f g : String → Option τ} (h : ∀ b ∈ S, g b = f b) :
    S.filterMap g = S.filterMap f :=
  Quotient.inductionOn S (fun _ h => congrArg _ (List.filterMap_congr h)) h

omit [Sub τ] in
/-- A collection after a change at an element that had nothing to give. -/
lemma filterMap_insert {S : Finset String} {f g : String → Option τ} (a : String)
    (ha : f a = none) (h : ∀ b ≠ a, g b = f b) :
    (insert a S).val.filterMap g = ((g a).toList : Multiset τ) + S.val.filterMap f := by
  have hrest : (S.erase a).val.filterMap g = (S.erase a).val.filterMap f :=
    filterMap_congr fun b hb => h b (Finset.ne_of_mem_erase hb)
  have hold : S.val.filterMap f = (S.erase a).val.filterMap f := by
    by_cases hmem : a ∈ S
    · conv_lhs => rw [← Finset.insert_erase hmem,
        Finset.insert_val_of_notMem (Finset.notMem_erase a S), Multiset.filterMap_cons_none _ _ ha]
    · rw [Finset.erase_eq_of_notMem hmem]
  have hinsert : (insert a S).val = a ::ₘ (S.erase a).val := by
    rw [← Finset.insert_val_of_notMem (Finset.notMem_erase a S)]
    congr 1
    ext b
    by_cases hb : b = a <;> simp [hb]
  rw [hinsert, hold, ← hrest]
  cases hg : g a with
  | none => rw [Multiset.filterMap_cons_none _ _ hg]; simp
  | some d => rw [Multiset.filterMap_cons_some _ _ _ hg]; simp

omit [Sub τ] in
lemma running_concat :
    running (ts ++ [t]) + (if latest ts t.sessionId = .running then 1 else 0)
      = running ts + if t.target = .running then 1 else 0 := by
  have hcount := @card_filter_insert (sessions ts) (fun sid => latest ts sid = .running)
    (fun sid => latest (ts ++ [t]) sid = .running) _ _ t.sessionId
    (fun h => mem_sessions_of_latest (by simp [h]))
    (fun b hb => by rw [latest_concat, if_neg (Ne.symm hb)])
  rw [running, running, sessions_concat, hcount, latest_concat, if_pos rfl]

/-! ### What the handler keeps -/

/-- The durations that are observed: a session without a name has no start time. -/
def observed (ts : List (Transition τ)) (sid : String) : Option τ :=
  if sid = "" then none else lifetime ts sid

/-- What is kept over the transitions. -/
structure Kept (ts : List (Transition τ)) (m : Instruments τ) : Prop where
  active : m.sessionsActive = running ts + pauses ts
  durations : (m.sessionDuration : Multiset τ) = (sessions ts).val.filterMap (observed ts)
  starts : ∀ sid, m.startTimes.lookup sid
    = if sid ≠ "" ∧ endTime ts sid = none then startTime ts sid else none

omit [Sub τ] in
/-- The times of another session stay. -/
lemma timeOf_concat_of_ne (h : t.sessionId ≠ sid) (p : SessionState → Bool) :
    timeOf (ts ++ [t]) sid p = timeOf ts sid p := by
  rw [timeOf_concat, if_neg (fun ht => h ht.1), Option.or_none]

lemma lifetime_concat_of_ne (h : t.sessionId ≠ sid) :
    lifetime (ts ++ [t]) sid = lifetime ts sid := by
  simp only [lifetime, startTime, endTime, timeOf_concat_of_ne h]

lemma observed_concat_of_ne (h : sid ≠ t.sessionId) : observed (ts ++ [t]) sid = observed ts sid := by
  rw [observed, lifetime_concat_of_ne h.symm, ← observed]

omit [Sub τ] in
lemma stateValue_eq_running (st : SessionState) :
    stateValue st = runningState ↔ st = .running := by
  cases st <;> decide

omit [Sub τ] in
lemma stateValue_mem_terminal (st : SessionState) :
    stateValue st ∈ terminalStates ↔ st.Terminal := by
  cases st <;> decide

lemma onState_sessionsActive {m : Instruments τ} :
    (onState m t.event t.time).sessionsActive
      = m.sessionsActive + (if t.target = .running then 1 else 0)
        - (if t.source = .running ∧ t.target.Terminal then 1 else 0) := by
  simp only [onState, Transition.event, stateValue_eq_running, stateValue_mem_terminal]
  by_cases hrun : t.target = .running
  · simp only [hrun, if_true, SessionState.Terminal, and_false, if_false, sub_zero]
    split_ifs <;> rfl
  by_cases hend : t.target.Terminal
  · simp only [hrun, hend, if_true, if_false, and_true, add_zero]
    by_cases hsource : t.source = .running
    · simp only [hsource, if_true]
      split_ifs
      · split <;> rfl
      · rfl
    · simp only [hsource, if_false, sub_zero]
      split_ifs
      · split <;> rfl
      · rfl
  · simp [hrun, hend]

lemma onState_sessionDuration {m : Instruments τ} :
    (onState m t.event t.time).sessionDuration
      = m.sessionDuration ++ if t.sessionId ≠ "" ∧ t.target.Terminal then
          ((m.startTimes.lookup t.sessionId).map fun started => t.time - started).toList else [] := by
  simp only [onState, Transition.event, stateValue_eq_running, stateValue_mem_terminal]
  by_cases hrun : t.target = .running
  · simp only [hrun, if_true, SessionState.Terminal, and_false, if_false, List.append_nil]
    split_ifs <;> rfl
  by_cases hend : t.target.Terminal
  · simp only [hrun, hend, if_true, if_false, and_true]
    by_cases hsource : t.source = .running <;> simp only [hsource, if_true, if_false]
    all_goals
      by_cases hsid : t.sessionId = ""
      · simp [hsid]
      · simp only [hsid, ne_eq, not_false_eq_true, if_true]
        cases m.startTimes.lookup t.sessionId <;> simp
  · simp [hrun, hend]

lemma onState_startTimes {m : Instruments τ} (sid : String) :
    (onState m t.event t.time).startTimes.lookup sid
      = if t.sessionId = sid ∧ sid ≠ "" then
          if t.target = .running then (m.startTimes.lookup sid).or (some t.time)
          else if t.target.Terminal then none else m.startTimes.lookup sid
        else m.startTimes.lookup sid := by
  simp only [onState, Transition.event, stateValue_eq_running, stateValue_mem_terminal]
  by_cases hrun : t.target = .running
  · simp only [hrun, if_true]
    by_cases hsid : t.sessionId = sid
    · subst hsid
      by_cases hmem : t.sessionId ∈ m.startTimes
      · obtain ⟨started, hstarted⟩ := Option.isSome_iff_exists.mp (AList.lookup_isSome.mpr hmem)
        simp [hmem, hstarted]
      · have hnone : m.startTimes.lookup t.sessionId = none := AList.lookup_eq_none.mpr hmem
        by_cases hname : t.sessionId = "" <;> simp [hmem, hnone, hname]
    · simp only [hsid, false_and, if_false]
      split_ifs
      · exact AList.lookup_insert_ne (Ne.symm hsid)
      · rfl
  by_cases hend : t.target.Terminal
  · simp only [hrun, hend, if_true, if_false]
    have herase : (m.startTimes.erase t.sessionId).lookup sid
        = if t.sessionId = sid then none else m.startTimes.lookup sid := by
      split_ifs with hsid
      · rw [hsid, AList.lookup_erase]
      · exact AList.lookup_erase_ne (Ne.symm hsid)
    by_cases hname : t.sessionId = ""
    · simp only [hname, ne_eq, not_true_eq_false, if_false]
      by_cases hsid : "" = sid <;> split_ifs <;> simp_all
    · simp only [hname, ne_eq, not_false_eq_true, if_true]
      by_cases hsource : t.source = .running <;> simp only [hsource, if_true, if_false]
      all_goals
        cases m.startTimes.lookup t.sessionId <;>
          (simp only [herase]; by_cases hsid : t.sessionId = sid <;> simp_all)
  · simp [hrun, hend]

/-- **One more transition**, of a session that is where its lifecycle says. -/
lemma Kept.concat {m : Instruments τ} (h : Kept ts m) (hts : Conforms (ts ++ [t])) :
    Kept (ts ++ [t]) (onState m t.event t.time) := by
  obtain ⟨hconforms, hsource, hnext⟩ := hts.of_concat
  have hnotEnded : endTime ts t.sessionId = none :=
    endTime_eq_none hconforms (hsource ▸ hnext.source_not_terminal)
  have hstart : startTime (ts ++ [t]) t.sessionId
      = (startTime ts t.sessionId).or (if t.target = .running then some t.time else none) := by
    simp [startTime, timeOf_concat]
  have hend : endTime (ts ++ [t]) t.sessionId
      = if t.target.Terminal then some t.time else none := by
    rw [endTime, timeOf_concat, ← endTime, hnotEnded]
    simp
  refine ⟨?_, ?_, fun sid => ?_⟩
  · have hrunning := @running_concat τ t ts
    have hpauses := @pauses_concat τ t ts
    rw [hsource] at hrunning
    rw [onState_sessionsActive, h.active]
    obtain ⟨i, source, target, time⟩ := t
    cases hnext with
    | start | pause | resume =>
        simp [SessionState.Terminal] at hrunning hpauses ⊢
        omega
    | finish hs ht =>
        have hrun : target ≠ .running := by rintro rfl; exact ht
        have hpause : target ≠ .paused := by rintro rfl; exact ht
        simp only [hrun, hpause, ht, and_true, if_false] at hrunning hpauses ⊢
        split_ifs at hrunning ⊢ <;> omega
  · have hsame : observed ts t.sessionId = none := by
      simp [observed, lifetime, hnotEnded]
    rw [onState_sessionDuration, ← Multiset.coe_add, h.durations, sessions_concat,
      filterMap_insert t.sessionId hsame fun b hb => observed_concat_of_ne hb, add_comm]
    congr 2
    rw [h.starts, observed, lifetime, hstart, hend]
    by_cases hname : t.sessionId = ""
    · simp [hname]
    by_cases hterminal : t.target.Terminal
    · have hrun : t.target ≠ .running := fun hrun => by simp [hrun, SessionState.Terminal] at hterminal
      simp only [hname, hterminal, hrun, hnotEnded, ne_eq, not_false_eq_true, and_self, if_true,
        if_false, Option.or_none, Option.map_some]
      cases startTime ts t.sessionId <;> rfl
    · simp [hterminal]
  · rw [onState_startTimes, h.starts]
    by_cases hsid : t.sessionId = sid
    · subst hsid
      rw [hstart, hend, hnotEnded]
      by_cases hname : t.sessionId = ""
      · simp [hname]
      by_cases hrun : t.target = .running
      · simp [hname, hrun, SessionState.Terminal]
      · by_cases hterminal : t.target.Terminal <;> simp [hname, hrun, hterminal]
    · have hstart' : startTime (ts ++ [t]) sid = startTime ts sid := timeOf_concat_of_ne hsid _
      have hend' : endTime (ts ++ [t]) sid = endTime ts sid := timeOf_concat_of_ne hsid _
      rw [if_neg fun h => hsid h.1, hstart', hend']

/-- **What any run that conforms comes to.** -/
lemma onState_run (h : Conforms ts) : Kept ts (instruments ts) := by
  induction ts using List.reverseRecOn with
  | nil => exact ⟨rfl, rfl, fun _ => by simp [instruments, startTime, timeOf]⟩
  | append_singleton ts t ih =>
      rw [instruments_concat]
      exact (ih h.of_concat.1).concat h

omit [Sub τ] in
lemma timeOf_of_init {before : List (Transition τ)} (hbefore : before <+: ts)
    {p : SessionState → Bool} {time : τ} (h : timeOf before sid p = some time) :
    timeOf ts sid p = some time := by
  obtain ⟨after, rfl⟩ := hbefore
  rw [timeOf, List.find?_append, Option.map_or, ← timeOf, h, Option.some_or]

lemma lifetime_of_init {before : List (Transition τ)} (hbefore : before <+: ts)
    (h : lifetime ts sid = none) : lifetime before sid = none := by
  rw [Option.eq_none_iff_forall_ne_some] at h ⊢
  intro duration hduration
  obtain ⟨started, hstarted, hduration⟩ := Option.bind_eq_some_iff.mp hduration
  obtain ⟨ended, hended, rfl⟩ := Option.map_eq_some_iff.mp hduration
  refine h (ended - started) ?_
  rw [lifetime, startTime, endTime, timeOf_of_init hbefore hstarted,
    timeOf_of_init hbefore hended]
  rfl

lemma mem_sessions_of_lifetime {duration : τ} (h : lifetime ts sid = some duration) :
    sid ∈ sessions ts := by
  obtain ⟨started, hstarted, -⟩ := Option.bind_eq_some_iff.mp h
  obtain ⟨t, ht, -⟩ := Option.map_eq_some_iff.mp hstarted
  have hsid := List.find?_some ht
  rw [Bool.and_eq_true, decide_eq_true_eq] at hsid
  exact List.mem_toFinset.mpr (List.mem_map.mpr ⟨t, List.mem_of_find?_eq_some ht, hsid.1⟩)

/-- All durations are observed exactly when the session without a name has none. -/
lemma filterMap_observed_iff :
    (sessions ts).val.filterMap (observed ts) = (sessions ts).val.filterMap (lifetime ts) ↔
      lifetime ts "" = none := by
  have hinsert := @filterMap_insert τ (sessions ts) (observed ts) (lifetime ts) "" (if_pos rfl)
    (fun b hb => (if_neg hb).symm)
  constructor
  · intro h
    rw [Option.eq_none_iff_forall_ne_some]
    intro duration hduration
    rw [Finset.insert_eq_of_mem (mem_sessions_of_lifetime hduration), ← h, hduration] at hinsert
    have hcard := congrArg Multiset.card hinsert
    simp at hcard
  · intro h
    refine filterMap_congr fun sid _ => ?_
    rw [observed]
    split_ifs with hsid
    · rw [hsid, h]
    · rfl

/-- The instruments are exact all the time exactly when no session is ever paused (and none without
a name starts and ends). -/
theorem gauge_exact_iff (ts : List (Transition τ)) (h : Conforms ts) :
    (∀ before, before <+: ts → Exact before (instruments before)) ↔
      (∀ t ∈ ts, t.target ≠ .paused) ∧ lifetime ts "" = none := by
  constructor
  · intro hexact
    have hkept := onState_run h
    have hall := hexact ts (List.prefix_refl ts)
    constructor
    · have hpauses : pauses ts = 0 := by
        have := hkept.active.symm.trans hall.active
        omega
      intro t ht
      simpa using List.countP_eq_zero.mp hpauses t ht
    · exact filterMap_observed_iff.mp (hkept.durations.symm.trans hall.durations)
  · rintro ⟨hpause, hname⟩ before hbefore
    have hkept := onState_run (h.of_init hbefore)
    have hpauses : pauses before = 0 :=
      List.countP_eq_zero.mpr fun t ht => by simpa using hpause t (hbefore.subset ht)
    refine ⟨?_, ?_, fun sid hsid => ?_⟩
    · rw [hkept.active, hpauses]
      simp
    · rw [hkept.durations]
      exact filterMap_observed_iff.mpr (lifetime_of_init hbefore hname)
    · obtain ⟨started, hstarted⟩ := Option.isSome_iff_exists.mp (AList.lookup_isSome.mpr hsid)
      rw [hkept.starts] at hstarted
      split_ifs at hstarted with hopen
      exact ⟨by simp [hstarted], hopen.2⟩

/-- A session is cancelled before it starts, while another starts and completes. -/
def neverPaused : List (Transition ℤ) :=
  [⟨"s1", .queued, .running, 0⟩, ⟨"s2", .queued, .cancelled, 1⟩, ⟨"s1", .running, .completed, 3⟩]

theorem gauge_exact_neverPaused :
    Conforms neverPaused ∧
      ∀ before, before <+: neverPaused → Exact before (instruments before) := by
  have hstart : Conforms [⟨"s1", .queued, .running, (0 : ℤ)⟩] := conforms_nil.concat rfl .start
  have hconforms : Conforms neverPaused :=
    (hstart.concat (t := ⟨"s2", .queued, .cancelled, 1⟩) rfl (.finish id trivial)).concat rfl
      (.finish id trivial)
  exact ⟨hconforms, (gauge_exact_iff neverPaused hconforms).mpr ⟨by decide, by decide⟩⟩

/-- A session starts at 0, is paused at 1, and is resumed and ends later. -/
def pausedOnce : List (Transition ℤ) :=
  [⟨"s1", .queued, .running, 0⟩, ⟨"s1", .running, .paused, 1⟩, ⟨"s1", .paused, .running, 2⟩,
    ⟨"s1", .running, .completed, 3⟩]

lemma pausedOnce_conforms : Conforms pausedOnce := by
  have hstart : Conforms [⟨"s1", .queued, .running, (0 : ℤ)⟩] := conforms_nil.concat rfl .start
  exact ((hstart.concat rfl .pause).concat rfl .resume).concat rfl (.finish id trivial)

/-- A session that was paused is counted as running after its end. -/
theorem pause_leaves_gauge :
    Conforms pausedOnce ∧ ¬∀ before, before <+: pausedOnce → Exact before (instruments before) := by
  refine ⟨pausedOnce_conforms, fun h => ?_⟩
  have hactive := (h pausedOnce (List.prefix_refl _)).active
  revert hactive
  decide

end GgRelay.MetricsSubscriber
