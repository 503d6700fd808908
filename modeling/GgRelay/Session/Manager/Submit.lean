import GgRelay.Session.Manager.WellFormed

/-!
`submit` as a whole: what is left of a call that has come to its end.

* `AllOrNothing`: a call that returned has a row and a task, a call that raised has left neither a
  live row nor an entry of the dictionaries;
* `submitLost` is the condition: the exception struck after `create_session` had committed;
* `submit_all_or_nothing_iff`: at the end of every call, and at every time after it,
  `AllOrNothing` holds if and only if the call was not lost;
* `publish_failure_leaves_row`: a call that is.
-/

namespace GgRelay

namespace Manager

/-- The call of `submit` that a step runs. -/
def submitCall (m : Manager) : Label → Option CallId
  | .submit _ => some m.nextCall
  | .call cid _ =>
      match m.calls cid with
      | .submit _ _ => some cid
      | _ => none
  | _ => none

/-- An exception strikes a `submit` between the commit of its row and the creation of its task. -/
def submitLost (m : Manager) : Label → Bool
  | .call cid (.raise e) =>
      match m.calls cid with
      | .submit _ (.created _) | .submit _ (.publish _) => true
      | .submit _ (.audit _) => e = .cancelledError
      | _ => false
  | _ => false

/-- What a call of `submit` that drew the id `drawn` and ended in `r` may leave behind. -/
def AllOrNothing (m : Manager) (drawn : Option SessionId) (r : Except Exn SessionId) : Prop :=
  match r with
  | .ok sid => drawn = some sid ∧ (m.sess sid).row.isSome ∧ (m.sess sid).run.phase ≠ .absent
  | .error _ => ∀ sid ∈ drawn, (∀ row ∈ (m.sess sid).row, row.status.Terminal) ∧
      (m.sess sid).metrics = false ∧ (m.sess sid).apiKey = none ∧ (m.sess sid).owner = none ∧
      (m.sess sid).state = none ∧ (m.sess sid).tracked = false

variable {cfg : ManagerConfig} {m m' : Manager} {l : Label}

/-! ### What stays -/

/-- The id was drawn, nothing but a row was written under it, and nobody is going to. -/
structure Abandoned (m : Manager) (sid : SessionId) (row : Option SessionRow) : Prop where
  lt : sid < m.nextSid
  sess : m.sess sid = { row := row }
  draws : ∀ cid, (m.calls cid).phase.draws ≠ some sid

/-- The session has a row and a task. -/
structure Submitted (m : Manager) (sid : SessionId) : Prop where
  row : (m.sess sid).row.isSome
  run : (m.sess sid).run.phase ≠ .absent

lemma Abandoned.step (hw : m.WellFormed) (h : Move cfg m l m') {sid : SessionId}
    {row : Option SessionRow} (ha : m.Abandoned sid row) : m'.Abandoned sid row := by
  obtain ⟨hlt, hs, hd⟩ := ha
  have hl := hw.launched
  have hdr := hw.drafting
  refine ⟨?_, ?_, ?_⟩
  · cases h with
    | _ => simp <;> grind [Drafts]
  · cases h with
    | _ =>
      simp [Function.update_apply] <;> grind
  · intro cid
    have hdc := hd cid
    cases h with
    | _ =>
      simp [Function.update_apply] <;> grind [Drafts]

lemma Submitted.step (hw : m.WellFormed) (h : Move cfg m l m') {sid : SessionId}
    (hs : m.Submitted sid) : m'.Submitted sid := by
  obtain ⟨hr, hp⟩ := hs
  have hsub := hw.submitting
  refine ⟨?_, ?_⟩
  · cases h with
    | _ =>
      simp [Function.update_apply] <;> grind
  · cases h with
    | _ =>
      simp [Function.update_apply] <;> grind

/-! ### The ends of a call -/

/-- How a `submit` can end, with the id it drew, its result, and whether it was lost. -/
inductive SubmitEnds (m : Manager) : Option SessionId → Except Exn SessionId → Bool → Prop
  | refused (e : Exn) : SubmitEnds m none (.error e) false
  | abandoned {sid : SessionId} (e : Exn) (h : m.Abandoned sid none) :
      SubmitEnds m (some sid) (.error e) false
  | stranded {sid : SessionId} (e : Exn) (h : m.Abandoned sid (some .created)) :
      SubmitEnds m (some sid) (.error e) true
  | submitted {sid : SessionId} (h : m.Submitted sid) : SubmitEnds m (some sid) (.ok sid) false

variable {drawn : Option SessionId} {result : Except Exn SessionId} {lost : Bool}

lemma SubmitEnds.step (hw : m.WellFormed) (h : Move cfg m l m')
    (he : m.SubmitEnds drawn result lost) : m'.SubmitEnds drawn result lost := by
  cases he with
  | refused e => exact .refused e
  | abandoned e ha => exact .abandoned e (ha.step hw h)
  | stranded e ha => exact .stranded e (ha.step hw h)
  | submitted hs => exact .submitted (hs.step hw h)

lemma SubmitEnds.allOrNothing_iff (he : m.SubmitEnds drawn result lost) :
    m.AllOrNothing drawn result ↔ lost = false := by
  cases he with
  | refused e => simp [AllOrNothing]
  | abandoned e ha => simp [AllOrNothing, ha.sess]
  | stranded e ha => simp [AllOrNothing, ha.sess, SessionRow.created, SessionState.Terminal]
  | submitted hs => simp [AllOrNothing, hs.row, hs.run]

/-- The credential check ends a call only with an error, and then nobody has drawn a second id. -/
lemma submitCheck_ends (hw : m.WellFormed) {args args' : SubmitArgs}
    (h : (m.submitCheck cfg args).1 = .submit args' (.done drawn result)) {cid : CallId}
    {m' : Manager} (hsess : m'.sess = m.sess) (hsid : m'.nextSid = (m.submitCheck cfg args).2)
    (hcalls : m'.calls = Function.update m.calls cid (m.submitCheck cfg args).1) :
    m'.SubmitEnds drawn result false := by
  have hs : m'.calls cid = .submit args' (.done drawn result) := by simp [hcalls, h]
  unfold submitCheck at h hsid
  split at h
  · cases h
    exact .refused _
  · split at h
    · cases h
    · rename_i hst hre
      cases h
      refine .abandoned _ ⟨by simp [hsid, hst, hre], by rw [hsess, hw.unused _ le_rfl], ?_⟩
      intro c hc
      by_cases he : c = cid
      · subst he
        rw [hs] at hc
        simp [Call.phase, CallPhase.draws] at hc
      · rw [hcalls, Function.update_of_ne he, CallPhase.draws_eq_some] at hc
        rcases hc with hc | hc
        · exact absurd (hw.drafting c _ hc).1 (lt_irrefl _)
        · exact absurd (hw.submitting c _ hc).1 (lt_irrefl _)

/-- A call that ends is the only one that had drawn its id. -/
lemma draws_of_ended (hw : m.WellFormed) {cid : CallId} {sid : SessionId}
    (hd : (m.calls cid).phase.draws = some sid) {c : Call} (hc : c.phase = .idle) :
    ∀ c', (Function.update m.calls cid c c').phase.draws ≠ some sid := by
  intro c' h
  by_cases he : c' = cid
  · subst he
    rw [Function.update_self, hc] at h
    simp [CallPhase.draws] at h
  · rw [Function.update_of_ne he] at h
    exact he (hw.drawn c' cid sid h hd)

/-- A call that gives up an id leaves what it has written under it. -/
lemma abandoned_of_draws (hw : m.WellFormed) {cid : CallId} {sid : SessionId}
    (hd : (m.calls cid).phase.draws = some sid) (hlt : sid < m.nextSid) {row : Option SessionRow}
    (hs : m.sess sid = { row := row }) {c : Call} (hc : c.phase = .idle) :
    (m.setCall cid c).Abandoned sid row :=
  ⟨hlt, hs, draws_of_ended hw hd hc⟩

lemma stranded_of_submitting (hw : m.WellFormed) {cid : CallId} {sid : SessionId}
    (hp : (m.calls cid).phase = .submitting sid) {args args' : SubmitArgs} {e : Exn}
    (hd : (m.setCall cid (.submit args (.done (some sid) (.error e)))).calls cid
      = .submit args' (.done drawn result)) :
    (m.setCall cid (.submit args (.done (some sid) (.error e)))).SubmitEnds drawn result true := by
  simp only [setCall_calls, Function.update_self, Call.submit.injEq, SubmitPc.done.injEq] at hd
  obtain ⟨-, rfl, rfl⟩ := hd
  obtain ⟨hlt, hs⟩ := hw.submitting cid sid hp
  exact .stranded e (abandoned_of_draws hw (by simp [hp, CallPhase.draws]) hlt hs rfl)

lemma submitStep_ends (hw : m.WellFormed) {cid : CallId} {args args' : SubmitArgs} {pc : SubmitPc}
    {r : Reply} (hc : m.calls cid = .submit args pc) (h : m.submitStep cfg cid args pc r = some m')
    (hd : m'.calls cid = .submit args' (.done drawn result)) :
    m'.SubmitEnds drawn result (m.submitLost (.call cid r)) := by
  cases pc with
  | done => simp [submitStep] at h
  | lookup =>
      cases r with
      | credentials rows =>
          simp only [submitStep, Option.some.injEq] at h
          subst h
          simp only [submitLookedUp, setCall_calls, Function.update_self] at hd
          exact submitCheck_ends hw hd rfl rfl rfl
      | raise e =>
          have hl : m.submitLost (.call cid (.raise e)) = false := by simp [submitLost, hc]
          rw [hl]
          have hrefused : ∀ e, (m.setCall cid (.submit args (.done none (.error e)))).calls cid
                = .submit args' (.done drawn result) →
              (m.setCall cid (.submit args (.done none (.error e)))).SubmitEnds drawn result
                false := by
            intro e hd
            simp only [setCall_calls, Function.update_self, Call.submit.injEq,
              SubmitPc.done.injEq] at hd
            obtain ⟨-, rfl, rfl⟩ := hd
            exact .refused e
          simp only [submitStep] at h
          split at h
          · cases h
            exact hrefused _ hd
          · split at h
            · cases h
              exact hrefused _ hd
            · cases h
              simp only [submitLookedUp, setCall_calls, Function.update_self] at hd
              exact submitCheck_ends hw hd rfl rfl rfl
      | ok | ack | started | swallowed => simp [submitStep] at h
  | create sid =>
      have hp : (m.calls cid).phase = .drafting sid := by simp [hc, Call.phase]
      cases r with
      | raise e =>
          have hl : m.submitLost (.call cid (.raise e)) = false := by simp [submitLost, hc]
          rw [hl]
          simp only [submitStep, Option.some.injEq] at h
          subst h
          simp only [setCall_calls, Function.update_self, Call.submit.injEq,
            SubmitPc.done.injEq] at hd
          obtain ⟨-, rfl, rfl⟩ := hd
          obtain ⟨hlt, hs⟩ := hw.drafting cid sid hp
          exact .abandoned e (abandoned_of_draws hw (by simp [hp, CallPhase.draws]) hlt hs rfl)
      | ok | ack | credentials | started | swallowed => simp [submitStep] at h
  | created sid =>
      have hp : (m.calls cid).phase = .submitting sid := by simp [hc, Call.phase]
      cases r with
      | ok =>
          simp only [submitStep, Option.some.injEq] at h
          subst h
          simp at hd
      | raise e =>
          have hl : m.submitLost (.call cid (.raise e)) = true := by simp [submitLost, hc]
          rw [hl]
          simp only [submitStep, Option.some.injEq] at h
          subst h
          exact stranded_of_submitting hw hp hd
      | ack | credentials | started | swallowed => simp [submitStep] at h
  | audit sid =>
      have hp : (m.calls cid).phase = .submitting sid := by simp [hc, Call.phase]
      cases r with
      | ok =>
          simp only [submitStep, Option.some.injEq] at h
          subst h
          simp at hd
      | raise e =>
          by_cases he : e = .cancelledError
          · have hl : m.submitLost (.call cid (.raise e)) = true := by simp [submitLost, hc, he]
            rw [hl]
            simp only [submitStep, he, if_true, Option.some.injEq] at h
            subst h
            exact stranded_of_submitting hw hp hd
          · simp only [submitStep, he, if_false, Option.some.injEq] at h
            subst h
            simp at hd
      | ack | credentials | started | swallowed => simp [submitStep] at h
  | publish sid =>
      have hp : (m.calls cid).phase = .submitting sid := by simp [hc, Call.phase]
      cases r with
      | ok =>
          have hl : m.submitLost (.call cid .ok) = false := rfl
          rw [hl]
          simp only [submitStep, Option.some.injEq] at h
          subst h
          simp only [setCall_calls, Function.update_self, Call.submit.injEq,
            SubmitPc.done.injEq] at hd
          obtain ⟨-, rfl, rfl⟩ := hd
          obtain ⟨-, hs⟩ := hw.submitting cid sid hp
          exact .submitted ⟨by simp [hs], by simp⟩
      | raise e =>
          have hl : m.submitLost (.call cid (.raise e)) = true := by simp [submitLost, hc]
          rw [hl]
          simp only [submitStep, Option.some.injEq] at h
          subst h
          exact stranded_of_submitting hw hp hd
      | ack | credentials | started | swallowed => simp [submitStep] at h

/-- Every end of a `submit` is one of the four. -/
lemma submit_ends (hw : m.WellFormed) {cid : CallId} (hc : m.submitCall l = some cid)
    (h : m.step cfg l = some m') {args : SubmitArgs}
    (hd : m'.calls cid = .submit args (.done drawn result)) :
    m'.SubmitEnds drawn result (m.submitLost l) := by
  cases l with
  | submit args' =>
      have hl : m.submitLost (.submit args') = false := rfl
      rw [hl]
      simp only [submitCall, Option.some.injEq] at hc
      subst hc
      simp only [step, Option.some.injEq] at h
      subst h
      simp only [submitEntry] at hd ⊢
      split at hd
      · simp only [newCall_calls, Function.update_self, Call.submit.injEq,
          SubmitPc.done.injEq] at hd
        obtain ⟨-, rfl, rfl⟩ := hd
        exact .refused _
      · split at hd
        · simp at hd
        · rename_i ha hs
          rw [if_neg ha, if_neg hs]
          simp only [newCall_calls, Function.update_self] at hd
          exact submitCheck_ends hw hd rfl rfl rfl
  | call c r =>
      simp only [submitCall] at hc
      split at hc
      · rename_i args' pc hpc
        simp only [Option.some.injEq] at hc
        subst hc
        simp only [step, callStep, hpc] at h
        exact submitStep_ends hw hpc h hd
      · simp at hc
  | _ => simp [submitCall] at hc

/-- **`submit` is all-or-nothing, at the end of the call and for ever after, if and only if it was
not lost**: if and only if no exception struck it between the commit of its row and the creation
of its task. -/
theorem submit_all_or_nothing_iff {m'' : Manager} (hr : (managerSystem cfg).Reachable m)
    {cid : CallId} (hc : m.submitCall l = some cid) (hs : m.step cfg l = some m')
    {args : SubmitArgs} (hd : m'.calls cid = .submit args (.done drawn result))
    (hl : (managerSystem cfg).Leads (fun _ _ => True) m' m'') :
    m''.AllOrNothing drawn result ↔ m.submitLost l = false := by
  have hends := submit_ends (wellFormed_of_reachable hr) hc hs hd
  have hlater : m''.SubmitEnds drawn result (m.submitLost l) := by
    refine (System.ReachableVia.step hr trivial hs).stable
      (P := fun t => t.SubmitEnds drawn result (m.submitLost l)) ?_ hl hends
    intro s l' t hs' he _ hst
    exact he.step (wellFormed_of_reachable hs') (step_move hst)
  exact hlater.allOrNothing_iff

/-- A call of `submit` up to the publication of `SessionCreated`. -/
def submitRun : List Label := [.submit {}, .callCommit 0, .call 0 .ok, .call 0 .ok]

/-- The publication succeeds. -/
theorem submit_all_or_nothing_of_published :
    ∃ m m', (managerSystem oneSlot).run (fresh oneSlot []) submitRun = some m ∧
      m.step oneSlot (.call 0 .ok) = some m' ∧ m'.AllOrNothing (some 0) (.ok 0) := by
  have hrun : ((managerSystem oneSlot).run (fresh oneSlot []) submitRun).any
      (fun m => m.submitCall (.call 0 .ok) = some 0) = true := by decide
  have hend : (((managerSystem oneSlot).run (fresh oneSlot []) submitRun).bind
      fun m => (m.step oneSlot (.call 0 .ok)).map fun m' => m'.calls 0)
        = some (.submit {} (.done (some 0) (.ok 0))) := rfl
  obtain ⟨m, hm, hc⟩ := (Option.any_eq_true _ _).mp hrun
  rw [hm, Option.bind_some, Option.map_eq_some_iff] at hend
  obtain ⟨m', hs, hd⟩ := hend
  exact ⟨m, m', hm, hs, (submit_all_or_nothing_iff (reachable_of_run hm) (of_decide_eq_true hc) hs hd
    .refl).mpr rfl⟩

/-- The event bus cannot persist `SessionCreated`: the call raises, and its row stays `queued`
without a task. -/
theorem publish_failure_leaves_row :
    ∃ m m', (managerSystem oneSlot).run (fresh oneSlot []) submitRun = some m ∧
      m.step oneSlot (.call 0 (.raise (.other "unknown" 500))) = some m' ∧
      m'.calls 0 = .submit {} (.done (some 0) (.error (.other "unknown" 500))) ∧
      (m'.sess 0).row = some .created ∧ (m'.sess 0).run.phase = .absent ∧
      ¬m'.AllOrNothing (some 0) (.error (.other "unknown" 500)) := by
  have hend : (((managerSystem oneSlot).run (fresh oneSlot []) submitRun).bind
      fun m => (m.step oneSlot (.call 0 (.raise (.other "unknown" 500)))).map fun m' =>
        (m'.calls 0, (m'.sess 0).row, (m'.sess 0).run.phase))
        = some (.submit {} (.done (some 0) (.error (.other "unknown" 500))), some .created,
          .absent) := rfl
  obtain ⟨m, hm, hend⟩ := Option.bind_eq_some_iff.mp hend
  obtain ⟨m', hs, hd⟩ := Option.map_eq_some_iff.mp hend
  simp only [Prod.mk.injEq] at hd
  obtain ⟨hd, hrow, hrun⟩ := hd
  refine ⟨m, m', hm, hs, hd, hrow, hrun, fun h => ?_⟩
  have := (h 0 rfl).1 _ hrow
  simp [SessionRow.created, SessionState.Terminal] at this

end Manager

end GgRelay
