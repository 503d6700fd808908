import GgRelay.Session.K8sJob.Executor

/-!
The limit and the Secrets of the Kubernetes executor, over all its runs.

* `HasRoom` and `Foreseen` are the conditions on a step: a job is admitted only if there is room for
  the calls under way as well, and no exception strikes that the handlers let through;
* `Job` is what concerns one id, `Job.Step` what becomes of it, `Job.Lost` says that nobody answers
  for its Secret any more; `step_job` connects it to the steps of the executor;
* `resources_kept_iff` is the result: the runs that meet the conditions keep the limit and leak no
  Secret, and each other step leads to a state that does not.
-/

namespace GgRelay.K8sJob

/-! ### The conditions -/

/-- The calls of `recv` end with the transport closed, or with the time over. -/
def recvsEnd : List (Except Exn Unit) → Bool
  | [] => true
  | .ok () :: recvs => recvsEnd recvs
  | .error e :: _ => e ∈ [Exn.transportClosed, .timeoutError]

/-- The call is not cancelled. -/
def uncancelled : Except Exn Unit → Bool
  | .error e => e.isException
  | .ok () => true

/-- Nothing keeps `stop` from its `delete_secret`. -/
def Drain.Ends (d : Drain) : Bool :=
  uncancelled d.send && recvsEnd d.recvs && uncancelled d.close

/-- Whoever is admitted finds room even if all the calls under way get their job. -/
def HasRoom (maxConcurrentJobs : ℤ) (s : Executor) : Label → Prop
  | .start _ => s.inflight.card < maxConcurrentJobs →
      s.inflight.card + s.starting.card < maxConcurrentJobs
  | _ => True

/-- No exception strikes that the handlers let through. -/
def Foreseen (s : Executor) : Label → Bool
  | .createSecret _ (.created buildEnv) => buildEnv.isOk
  | .createSecret _ (.raised _ onCluster) => !onCluster
  | .createJob _ r | .waitForPodIp _ r => uncancelled r
  | .connect _ net => net.Foreseen
  | .drain i d => d.Ends || i ∈ s.deleted
  | _ => true

/-- **The condition on a step.** -/
def Careful (maxConcurrentJobs : ℤ) (s : Executor) (l : Label) : Prop :=
  HasRoom maxConcurrentJobs s l ∧ Foreseen s l = true

lemma suppress_eq (r : Except Exn Unit) :
    suppress r = if uncancelled r then .ok () else .error .cancelled := by
  cases r with
  | ok u => rfl
  | error e => cases e <;> rfl

lemma isOk_awaitClose (recvs : List (Except Exn Unit)) :
    (awaitClose recvs).isOk = recvsEnd recvs := by
  induction recvs with
  | nil => rfl
  | cons r recvs ih =>
      cases r with
      | ok u => exact ih
      | error e => cases e <;> rfl

lemma isOk_run (d : Drain) : d.run.isOk = d.Ends := by
  rw [Drain.run, Drain.Ends, ← isOk_awaitClose, suppress_eq, suppress_eq]
  cases uncancelled d.send with
  | false => rfl
  | true =>
      cases awaitClose d.recvs with
      | error e => rfl
      | ok u => cases uncancelled d.close <;> rfl

/-! ### One job -/

/-- What concerns one id. -/
@[ext]
structure Job where
  drawn : Bool
  pc : StartPc
  created : Bool
  deleted : Bool
  inflight : Bool
  /-- the calls of `stop` that close its transport -/
  drains : ℕ

/-- **What becomes of a job in a step**; the flag says that its Secret is left to nobody. -/
inductive Job.Step (j : Job) : Bool → Job → Prop
  | refused : Step j false j
  | begins : j.pc = .notCalled →
      Step j false { j with drawn := true, pc := .createSecret }
  | creates : j.pc = .createSecret → Step j false { j with pc := .createJob, created := true }
  | notCreated : j.pc = .createSecret → Step j false { j with pc := .failed }
  | abandons : j.pc = .createSecret → Step j true { j with pc := .failed, created := true }
  | waits : j.pc = .createJob → Step j false { j with pc := .waitForPodIp }
  | connects : j.pc = .waitForPodIp → Step j false { j with pc := .connect }
  | fails : j.pc ∈ [.createJob, .waitForPodIp, .connect] →
      Step j false { j with pc := .deleteSecret, deleted := true }
  | escapes : j.pc ∈ [.createJob, .waitForPodIp, .connect] → Step j true { j with pc := .failed }
  | registers : j.pc = .connect → Step j false { j with pc := .returned, inflight := true }
  | cleaned : j.pc = .deleteSecret → Step j false { j with pc := .failed }
  | taken : j.pc = .returned → j.inflight = true →
      Step j false { j with inflight := false, drains := j.drains + 1 }
  | deletes : j.pc = .returned → j.inflight = false → Step j false { j with deleted := true }
  | drained : j.drains ≠ 0 → Step j false { j with drains := j.drains - 1, deleted := true }
  | dropped : j.drains ≠ 0 → Step j (!j.deleted) { j with drains := j.drains - 1 }

namespace Job

variable {j j' : Job} {leaks : Bool}

/-- **Nobody answers for the Secret any more.** -/
def Lost (j : Job) : Prop :=
  j.created = true ∧ j.deleted = false ∧ j.inflight = false ∧ j.pc.starting = false ∧ j.drains = 0

/-- **What holds of every job**, by where the call of `start` is. -/
def Valid (j : Job) : Prop :=
  (j.drawn = true ↔ j.pc ≠ .notCalled) ∧
  match j.pc with
  | .notCalled | .createSecret =>
      j.created = false ∧ j.deleted = false ∧ j.inflight = false ∧ j.drains = 0
  | .createJob | .waitForPodIp | .connect =>
      j.created = true ∧ j.deleted = false ∧ j.inflight = false ∧ j.drains = 0
  | .deleteSecret => j.created = true ∧ j.deleted = true ∧ j.inflight = false ∧ j.drains = 0
  | .returned => j.created = true ∧ j.inflight.toNat + j.drains ≤ 1
  | .failed => j.inflight = false ∧ j.drains = 0

lemma Valid.step (hv : j.Valid) (h : j.Step leaks j') : j'.Valid := by
  obtain ⟨drawn, pc, created, deleted, inflight, drains⟩ := j
  cases h with
  | refused => exact hv
  | drained h | dropped h =>
      cases pc <;> simp_all [Valid]
      omega
  | fails h | escapes h => cases pc <;> simp_all [Valid]
  | taken hpc hi | deletes hpc hi =>
      obtain rfl := hpc
      obtain rfl := hi
      simp_all [Valid]
  | begins hpc | creates hpc | notCreated hpc | abandons hpc | waits hpc | connects hpc
  | registers hpc | cleaned hpc =>
      obtain rfl := hpc
      simp_all [Valid]

/-- **A Secret is lost by a step that leaves it to nobody, and by no other.** -/
lemma Valid.lost_step (hv : j.Valid) (h : j.Step leaks j') (hl : j'.Lost) :
    leaks = true ∨ j.Lost := by
  obtain ⟨drawn, pc, created, deleted, inflight, drains⟩ := j
  cases h with
  | refused => exact Or.inr hl
  | abandons h | escapes h => exact Or.inl rfl
  | _ => cases pc <;> simp_all [Valid, Lost, StartPc.starting]

lemma Valid.lost_of_leaks (hv : j.Valid) (h : j.Step leaks j') (hleaks : leaks = true) :
    j'.Lost := by
  obtain ⟨drawn, pc, created, deleted, inflight, drains⟩ := j
  cases h with
  | abandons h | escapes h => cases pc <;> simp_all [Valid, Lost, StartPc.starting]
  | dropped h => cases pc <;> cases inflight <;> simp_all [Valid, Lost, StartPc.starting]
  | _ => cases hleaks

/-- The job is in flight or may still get there. -/
def holds (j : Job) : Bool := j.inflight || j.pc.starting

lemma Valid.drawn_of_holds (hv : j.Valid) (h : j.holds = true) : j.drawn = true := by
  obtain ⟨drawn, pc, created, deleted, inflight, drains⟩ := j
  cases pc <;> simp_all [Valid, holds, StartPc.starting]

/-- No step makes a holder of a job whose id has been drawn. -/
lemma Valid.holds_step (hv : j.Valid) (h : j.Step leaks j') (hd : j'.drawn = j.drawn)
    (hh : j'.holds = true) : j.holds = true := by
  obtain ⟨drawn, pc, created, deleted, inflight, drains⟩ := j
  cases h <;> cases pc <;> simp_all [Valid, holds, StartPc.starting]

end Job

/-! ### The jobs of the executor -/

/-- The job that a step is about. -/
def Label.id : Label → RuntimeId
  | start i | createSecret i _ | createJob i _ | waitForPodIp i _ | connect i _ | deleted i
  | stop i | drain i _ | stopped i => i

namespace Executor

open Function (update)

variable {s t : Executor} {i : RuntimeId} {pc : StartPc} {maxConcurrentJobs : ℤ} {l : Label}

/-- What concerns this id. -/
def job (s : Executor) (i : RuntimeId) : Job where
  drawn := i ∈ s.drawn
  pc := s.starts i
  created := i ∈ s.created
  deleted := i ∈ s.deleted
  inflight := i ∈ s.inflight
  drains := s.stops.count (.drains i)

lemma job_eq_update {j : Job} (hown : t.job i = j) (hother : ∀ k ≠ i, t.job k = s.job k) :
    t.job = update s.job i j :=
  Function.eq_update_iff.mpr ⟨hown, hother⟩

lemma job_draw : ({ s with drawn := insert i s.drawn } : Executor).job
    = update s.job i { s.job i with drawn := true } :=
  job_eq_update (Job.ext (by simp [job]) rfl rfl rfl rfl rfl) fun k hk =>
    Job.ext (by simp [job, hk]) rfl rfl rfl rfl rfl

lemma job_goto : (s.goto i pc).job = update s.job i { s.job i with pc } :=
  job_eq_update (Job.ext rfl (Function.update_self ..) rfl rfl rfl rfl) fun _ hk =>
    Job.ext rfl (Function.update_of_ne hk ..) rfl rfl rfl rfl

lemma job_addSecret : (s.addSecret i).job = update s.job i { s.job i with created := true } :=
  job_eq_update (Job.ext rfl rfl (by simp [job, addSecret]) rfl rfl rfl) fun k hk =>
    Job.ext rfl rfl (by simp [job, addSecret, hk]) rfl rfl rfl

lemma job_requestDelete :
    (s.requestDelete i).job = update s.job i { s.job i with deleted := true } :=
  job_eq_update (Job.ext rfl rfl rfl (by simp [job, requestDelete]) rfl rfl) fun k hk =>
    Job.ext rfl rfl rfl (by simp [job, requestDelete, hk]) rfl rfl

lemma job_register : (s.register i).job = update s.job i { s.job i with inflight := true } :=
  job_eq_update (Job.ext rfl rfl rfl rfl (by simp [job, register]) rfl) fun k hk =>
    Job.ext rfl rfl rfl rfl (by simp [job, register, hk]) rfl

lemma job_handle {takes : Bool} : (s.handle i takes).job = update s.job i
    (if takes then { s.job i with pc := .deleteSecret, deleted := true }
      else { s.job i with pc := .failed }) := by
  cases takes with
  | false => exact job_goto
  | true => simp [handle, job_goto, job_requestDelete]

lemma job_await_deletesSecret : (s.await (.deletesSecret i)).job = s.job :=
  funext fun k => Job.ext rfl rfl rfl rfl rfl (by simp [job, await])

lemma job_leave_deletesSecret : (s.leave (.deletesSecret i)).job = s.job :=
  funext fun k => Job.ext rfl rfl rfl rfl rfl (by simp [job, leave])

lemma job_leave_drains : (s.leave (.drains i)).job
    = update s.job i { s.job i with drains := (s.job i).drains - 1 } :=
  job_eq_update (Job.ext rfl rfl rfl rfl rfl (by simp [job, leave])) fun k hk =>
    Job.ext rfl rfl rfl rfl rfl (List.count_erase_of_ne (by simpa using hk))

lemma job_deleteSecret :
    (s.deleteSecret i).job = update s.job i { s.job i with deleted := true } := by
  rw [deleteSecret, job_await_deletesSecret, job_requestDelete]

lemma job_stop : (s.stop i).job = update s.job i (if (s.job i).inflight then
    { s.job i with inflight := false, drains := (s.job i).drains + 1 }
      else { s.job i with deleted := true }) := by
  rw [stop]
  split
  · rename_i hi
    have hi' : (s.job i).inflight = true := decide_eq_true hi
    rw [if_pos hi']
    refine job_eq_update (Job.ext rfl rfl rfl rfl (by simp [job, await]) (by simp [job, await])) ?_
    exact fun k hk => Job.ext rfl rfl rfl rfl (by simp [job, await, hk])
      (List.count_cons_of_ne (by simpa using hk.symm))
  · rename_i hi
    rw [if_neg (by simpa [job] using hi), job_deleteSecret]

/-- The awaited call of a `start` that has its Secret comes back. -/
lemma step_handle {takes : Bool} (hpc : s.starts i ∈ [.createJob, .waitForPodIp, .connect]) :
    ∃ j, (s.job i).Step (!takes) j ∧ (s.handle i takes).job = update s.job i j ∧
      (j.drawn = (s.job i).drawn ∨ ∃ k, l = .start k ∧ s.inflight.card < maxConcurrentJobs) := by
  cases takes with
  | true => exact ⟨_, .fails hpc, job_handle, Or.inl rfl⟩
  | false => exact ⟨_, .escapes hpc, job_handle, Or.inl rfl⟩

/-- **A step is about one job**, leaves its Secret to nobody if and only if it is not foreseen, and
draws its id only in an admitted `start`. -/
lemma step_job (hv : (s.job l.id).Valid) (h : s.step maxConcurrentJobs l = some t) :
    ∃ j, (s.job l.id).Step (!Foreseen s l) j ∧ t.job = update s.job l.id j ∧
      (j.drawn = (s.job l.id).drawn ∨
        ∃ k, l = .start k ∧ s.inflight.card < maxConcurrentJobs) := by
  cases l with
  | start i =>
      simp only [step, Option.ite_none_left_eq_some, Option.some.injEq] at h
      obtain ⟨hg, rfl⟩ := h
      have hpc : s.starts i = .notCalled := not_not.mp fun hpc =>
        hg (of_decide_eq_true (hv.1.mpr hpc))
      rw [start]
      split
      · exact ⟨_, .refused, (Function.update_eq_self ..).symm, Or.inl rfl⟩
      · exact ⟨_, .begins hpc, by simp [job_goto, job_draw, Label.id],
          Or.inr ⟨i, rfl, by omega⟩⟩
  | createSecret i r =>
      simp only [step, Option.ite_none_right_eq_some, Option.some.injEq] at h
      obtain ⟨hpc, rfl⟩ := h
      rcases r with ⟨e | u⟩ | ⟨e, _ | _⟩
      · exact ⟨_, .abandons hpc, by simp [createSecret, job_goto, job_addSecret, Label.id],
          Or.inl rfl⟩
      · exact ⟨_, .creates hpc, by simp [createSecret, job_goto, job_addSecret, Label.id],
          Or.inl rfl⟩
      · exact ⟨_, .notCreated hpc, by simp [createSecret, job_goto, Label.id], Or.inl rfl⟩
      · exact ⟨_, .abandons hpc, by simp [createSecret, job_goto, job_addSecret, Label.id],
          Or.inl rfl⟩
  | createJob i r =>
      simp only [step, Option.ite_none_right_eq_some, Option.some.injEq] at h
      obtain ⟨hpc, rfl⟩ := h
      cases r with
      | ok u => exact ⟨_, .waits hpc, job_goto, Or.inl rfl⟩
      | error e => exact step_handle (by simp [hpc, Label.id])
  | waitForPodIp i r =>
      simp only [step, Option.ite_none_right_eq_some, Option.some.injEq] at h
      obtain ⟨hpc, rfl⟩ := h
      cases r with
      | ok u => exact ⟨_, .connects hpc, job_goto, Or.inl rfl⟩
      | error e => exact step_handle (by simp [hpc, Label.id])
  | connect i net =>
      simp only [step, Option.ite_none_right_eq_some, Option.some.injEq] at h
      obtain ⟨hpc, rfl⟩ := h
      have hforeseen : (∀ e, net.connect = .error e → e.isExpected = true) ↔ net.Foreseen = true :=
        connect_foreseen_iff
      cases hnet : net.connect with
      | ok u =>
          have hf : net.Foreseen = true := hforeseen.mp (by simp [hnet])
          refine ⟨{ s.job i with pc := .returned, inflight := true }, ?_, ?_, Or.inl rfl⟩
          · rw [Foreseen, hf]
            exact .registers hpc
          · simp [connect, hnet, job_goto, job_register, Label.id]
      | error e =>
          have hf : net.Foreseen = e.isExpected := by
            rw [hnet] at hforeseen
            exact Bool.eq_iff_iff.mpr (hforeseen.symm.trans (by simp))
          simp only [Foreseen, hf, connect, hnet]
          exact step_handle (by simp [hpc, Label.id])
  | deleted i =>
      simp only [step, Option.ite_none_right_eq_some, Option.some.injEq] at h
      obtain ⟨hpc, rfl⟩ := h
      exact ⟨_, .cleaned hpc, job_goto, Or.inl rfl⟩
  | stop i =>
      simp only [step, Option.ite_none_right_eq_some, Option.some.injEq] at h
      obtain ⟨hpc, rfl⟩ := h
      refine ⟨_, ?_, job_stop, ?_⟩
      · cases hi : (s.job i).inflight with
        | true => exact .taken hpc hi
        | false => exact .deletes hpc hi
      · split <;> exact Or.inl rfl
  | drain i d =>
      simp only [step, Option.ite_none_right_eq_some, Option.some.injEq] at h
      obtain ⟨hmem, rfl⟩ := h
      have hdrains : (s.job i).drains ≠ 0 := (List.count_pos_iff.mpr hmem).ne'
      have hends := isOk_run d
      rw [drain, Foreseen, ← hends]
      cases d.run with
      | ok u => exact ⟨_, .drained hdrains, by simp [job_deleteSecret, job_leave_drains, Label.id],
          Or.inl rfl⟩
      | error e => exact ⟨_, .dropped hdrains, job_leave_drains, Or.inl rfl⟩
  | stopped i =>
      simp only [step, Option.ite_none_right_eq_some, Option.some.injEq] at h
      obtain ⟨hmem, rfl⟩ := h
      exact ⟨_, .refused, by rw [job_leave_deletesSecret]; simp, Or.inl rfl⟩

/-! ### Every state -/

/-- What holds of every state. -/
def Valid (s : Executor) : Prop := ∀ i, (s.job i).Valid

lemma valid_init : Valid {} := fun _ => ⟨by simp [job], rfl, rfl, rfl, rfl⟩

lemma Valid.step (hv : s.Valid) (h : s.step maxConcurrentJobs l = some t) : t.Valid := by
  obtain ⟨j, hj, ht, -⟩ := step_job (hv l.id) h
  intro k
  by_cases hk : k = l.id
  · rw [ht, hk, Function.update_self]
    exact (hv l.id).step hj
  · rw [ht, Function.update_of_ne hk]
    exact hv k

lemma Reachable.valid (h : (executor maxConcurrentJobs).Reachable s) : s.Valid :=
  h.invariant (fun _ h0 => h0 ▸ valid_init) fun _ _ _ hv _ hs => hv.step hs

/-- A foreseen step loses no Secret. -/
lemma Valid.not_lost_step (hv : s.Valid) (hf : Foreseen s l = true)
    (h : s.step maxConcurrentJobs l = some t) (hs : ∀ i, ¬(s.job i).Lost) :
    ∀ i, ¬(t.job i).Lost := by
  obtain ⟨j, hj, ht, -⟩ := step_job (hv l.id) h
  intro k
  by_cases hk : k = l.id
  · rw [ht, hk, Function.update_self]
    intro hl
    rcases (hv l.id).lost_step hj hl with hleaks | hlost
    · rw [hf] at hleaks
      cases hleaks
    · exact hs _ hlost
  · rw [ht, Function.update_of_ne hk]
    exact hs k

/-- Any other step loses one. -/
lemma Valid.lost_step (hv : s.Valid) (hf : Foreseen s l = false)
    (h : s.step maxConcurrentJobs l = some t) : (t.job l.id).Lost := by
  obtain ⟨j, hj, ht, -⟩ := step_job (hv l.id) h
  rw [ht, Function.update_self]
  exact (hv l.id).lost_of_leaks hj (by rw [hf, Bool.not_false])

/-! ### The limit -/

/-- The jobs that are in flight or may still get there. -/
def holders (s : Executor) : Finset RuntimeId := s.drawn.filter fun i => (s.job i).holds

lemma Valid.mem_holders (hv : s.Valid) : i ∈ s.holders ↔ (s.job i).holds = true := by
  rw [holders, Finset.mem_filter, and_iff_right_iff_imp]
  intro h
  exact of_decide_eq_true ((hv i).drawn_of_holds h)

lemma Valid.mem_starting (hv : s.Valid) : i ∈ s.starting ↔ (s.starts i).starting = true := by
  rw [starting, Finset.mem_filter, and_iff_right_iff_imp]
  intro h
  exact of_decide_eq_true ((hv i).drawn_of_holds (by simp [Job.holds, job, h]))

/-- A job that is in flight is not starting. -/
lemma Valid.not_starting (hv : s.Valid) (hi : i ∈ s.inflight) : (s.starts i).starting = false := by
  have hj := hv i
  have hinflight : (s.job i).inflight = true := decide_eq_true hi
  rw [Job.Valid, hinflight] at hj
  change (s.job i).pc.starting = false
  generalize (s.job i).pc = pc at hj
  cases pc <;> simp_all [StartPc.starting]

/-- Each of them is one or the other. -/
lemma Valid.card_holders (hv : s.Valid) :
    s.holders.card = s.inflight.card + s.starting.card := by
  have hdisjoint : Disjoint s.inflight s.starting := by
    refine Finset.disjoint_left.mpr fun i hi hstarting => ?_
    exact absurd (hv.mem_starting.mp hstarting) (by simp [hv.not_starting hi])
  rw [← Finset.card_union_of_disjoint hdisjoint]
  congr 1
  ext i
  rw [hv.mem_holders, Finset.mem_union, hv.mem_starting]
  simp [Job.holds, job]

/-- A step that admits nobody makes no holder, and one that admits a job makes this one. -/
lemma Valid.card_holders_step (hv : s.Valid) (h : s.step maxConcurrentJobs l = some t) :
    t.holders.card ≤ s.holders.card ∨ (∃ k, l = .start k) ∧
      s.inflight.card < maxConcurrentJobs ∧ t.holders.card ≤ s.holders.card + 1 := by
  have hv' := hv.step h
  obtain ⟨j, hj, ht, hdrawn | ⟨k, hl, hk⟩⟩ := step_job (hv l.id) h
  · refine Or.inl (Finset.card_le_card fun i hi => ?_)
    rw [hv'.mem_holders, ht] at hi
    rw [hv.mem_holders]
    by_cases hik : i = l.id
    · rw [hik, Function.update_self] at hi
      exact hik ▸ (hv l.id).holds_step hj hdrawn hi
    · rwa [Function.update_of_ne hik] at hi
  · refine Or.inr ⟨⟨k, hl⟩, hk, le_trans (Finset.card_le_card ?_) (Finset.card_insert_le l.id _)⟩
    intro i hi
    rw [hv'.mem_holders, ht] at hi
    rw [Finset.mem_insert, hv.mem_holders]
    by_cases hik : i = l.id
    · exact Or.inl hik
    · exact Or.inr (by rwa [Function.update_of_ne hik] at hi)

/-- **What the careful runs keep.** -/
theorem kept_of_careful (hmax : 0 ≤ maxConcurrentJobs)
    (h : (executor maxConcurrentJobs).ReachableVia (Careful maxConcurrentJobs) s) :
    s.Kept maxConcurrentJobs := by
  have hinv : s.holders.card ≤ maxConcurrentJobs ∧ ∀ i, ¬(s.job i).Lost := by
    refine h.invariant_of (J := Valid)
      (I := fun s => s.holders.card ≤ maxConcurrentJobs ∧ ∀ i, ¬(s.job i).Lost)
      (fun s hs => Reachable.valid hs.reachable) ?_ ?_
    · rintro _ rfl
      exact ⟨by simpa [holders] using hmax, fun i hl => by simp [Job.Lost, job] at hl⟩
    · intro s l t hv ⟨hlimit, hlost⟩ ⟨hroom, hf⟩ hs
      refine ⟨?_, hv.not_lost_step hf hs hlost⟩
      rcases hv.card_holders_step hs with hle | ⟨⟨k, rfl⟩, hk, hle⟩
      · omega
      · have hlt := hroom hk
        have hcard := hv.card_holders
        omega
  obtain ⟨hlimit, hlost⟩ := hinv
  have hcard := (Reachable.valid h.reachable).card_holders
  refine ⟨by omega, fun ⟨hstarts, hstops⟩ i hi => ?_⟩
  by_contra hnot
  rw [not_or] at hnot
  refine hlost i ⟨decide_eq_true hi, decide_eq_false hnot.1, decide_eq_false hnot.2, ?_, ?_⟩
  · exact (Bool.or_eq_false_iff.mp (hstarts i)).1
  · simp [job, hstops]

/-! ### The other runs -/

/-- A state that some run leads to. -/
abbrev Leads (maxConcurrentJobs : ℤ) : Executor → Executor → Prop :=
  (executor maxConcurrentJobs).Leads fun _ _ => True

lemma Leads.of_step (h : s.step maxConcurrentJobs l = some t) : Leads maxConcurrentJobs s t :=
  .single ⟨l, trivial, h⟩

lemma Reachable.leads (h : (executor maxConcurrentJobs).Reachable s)
    (hst : Leads maxConcurrentJobs s t) : (executor maxConcurrentJobs).Reachable t :=
  System.ReachableVia.leads h hst

/-- A call of `start` can be ended by a cancellation. -/
lemma leads_failed (h : (s.starts i).running = true) :
    Leads maxConcurrentJobs s (s.goto i .failed) := by
  cases hpc : s.starts i with
  | createSecret =>
      exact .of_step (l := .createSecret i (.raised .cancelled false))
        (by simp [step, hpc, createSecret])
  | createJob =>
      exact .of_step (l := .createJob i (.error .cancelled)) (if_pos hpc)
  | waitForPodIp =>
      exact .of_step (l := .waitForPodIp i (.error .cancelled)) (if_pos hpc)
  | connect =>
      exact .of_step (l := .connect i ⟨[⟨.error .cancelled, false⟩], .ok (), .ok .eof, .ok ()⟩)
        (if_pos hpc)
  | deleteSecret => exact .of_step (l := .deleted i) (if_pos hpc)
  | notCalled | returned | failed => simp [hpc, StartPc.running, StartPc.starting] at h

/-- A call of `stop` can be ended at once. -/
lemma leads_leave {c : StopCall} (h : c ∈ s.stops) : Leads maxConcurrentJobs s (s.leave c) := by
  cases c with
  | drains i => exact .of_step (l := .drain i ⟨.error .cancelled, [], .ok ()⟩) (if_pos h)
  | deletesSecret i => exact .of_step (l := .stopped i) (if_pos h)

/-- The calls of `start` that are executing. -/
def running (s : Executor) : Finset RuntimeId := s.drawn.filter fun i => (s.starts i).running

lemma Valid.mem_running (hv : s.Valid) : i ∈ s.running ↔ (s.starts i).running = true := by
  rw [running, Finset.mem_filter, and_iff_right_iff_imp]
  intro h
  refine of_decide_eq_true ((hv i).1.mpr fun hpc => ?_)
  have hpc' : s.starts i = .notCalled := hpc
  rw [hpc'] at h
  cases h

lemma lost_leave {c : StopCall} (hc : c ∈ s.stops) (hl : (s.job i).Lost) :
    ((s.leave c).job i).Lost := by
  cases c with
  | deletesSecret k => rwa [job_leave_deletesSecret]
  | drains k =>
      have hik : i ≠ k := by
        rintro rfl
        exact (List.count_pos_iff.mpr hc).ne' hl.2.2.2.2
      rwa [job_leave_drains, Function.update_of_ne hik]

lemma Valid.lost_goto {k : RuntimeId} (hv : s.Valid) (hk : (s.starts k).running = true)
    (hl : (s.job i).Lost) : ((s.goto k .failed).job i).Lost := by
  have hik : i ≠ k := by
    rintro rfl
    have hstarting : (s.starts i).starting = false := hl.2.2.2.1
    have hpc : (s.job i).pc = .deleteSecret := by
      rw [StartPc.running, hstarting, Bool.false_or] at hk
      exact of_decide_eq_true hk
    have hi := (hv i).2
    rw [hpc] at hi
    exact absurd hi.2.1 (by rw [hl.2.1]; exact Bool.false_ne_true)
  rwa [job_goto, Function.update_of_ne hik]

/-- **A Secret that is lost is lost when all calls have ended.** -/
lemma settles_of_lost (h : (executor maxConcurrentJobs).Reachable s) (hl : (s.job i).Lost) :
    ∃ t, Leads maxConcurrentJobs s t ∧ (t.job i).Lost ∧ t.Quiet := by
  have hv := Reachable.valid h
  -- the calls of `start` are ended first, then those of `stop`
  induction hn : s.running.card + s.stops.length using Nat.strong_induction_on generalizing s with
  | _ n ih =>
    have hstep : ∀ t, Leads maxConcurrentJobs s t → (t.job i).Lost →
        t.running.card + t.stops.length < n →
        ∃ u, Leads maxConcurrentJobs s u ∧ (u.job i).Lost ∧ u.Quiet := by
      intro t hst ht hlt
      have hr := Reachable.leads h hst
      obtain ⟨u, htu, hu⟩ := ih _ hlt hr ht (Reachable.valid hr) rfl
      exact ⟨u, hst.trans htu, hu⟩
    by_cases hstarts : s.running = ∅
    · cases hstops : s.stops with
      | nil =>
          refine ⟨s, .refl, hl, fun k => ?_, hstops⟩
          rw [← Bool.not_eq_true, ← hv.mem_running, hstarts]
          exact Finset.notMem_empty k
      | cons c cs =>
          have hc : c ∈ s.stops := by simp [hstops]
          refine hstep _ (leads_leave hc) (lost_leave hc hl) ?_
          have hlength : (s.leave c).stops.length = s.stops.length - 1 :=
            List.length_erase_of_mem hc
          have hpos := List.length_pos_of_mem hc
          have hrunning : (s.leave c).running = s.running := rfl
          rw [hrunning, hlength]
          omega
    · obtain ⟨k, hk⟩ := Finset.nonempty_iff_ne_empty.mpr hstarts
      have hpc := hv.mem_running.mp hk
      refine hstep _ (leads_failed hpc) (hv.lost_goto hpc hl) ?_
      have hcard : (s.goto k .failed).running.card < s.running.card := by
        refine Finset.card_lt_card
          ((Finset.ssubset_iff_of_subset fun m hm => ?_).mpr ⟨k, hk, ?_⟩)
        · rw [running, Finset.mem_filter] at hm ⊢
          by_cases hmk : m = k
          · exact ⟨hm.1, hmk ▸ hpc⟩
          · simpa [goto, hmk] using hm
        · simp [running, goto, StartPc.running, StartPc.starting]
      have hstops : (s.goto k .failed).stops = s.stops := rfl
      rw [hstops]
      omega

/-- A network on which the runner accepts the token at once. -/
def welcoming : Network where
  attempts := [⟨.ok (), false⟩]
  readline := .ok (.value (.mapping [("type", .str "auth.ack"), ("ok", .scalar (.bool true))]))

lemma starting_goto_of_starting (hi : i ∈ s.starting) (hpc : pc.starting = true) :
    (s.goto i pc).starting = s.starting := by
  rw [starting, Finset.mem_filter] at hi
  rw [starting, starting]
  refine Finset.filter_congr fun k hk => ?_
  by_cases hki : k = i
  · rw [hki, goto]
    simp [hpc, hi.2]
  · simp [goto, hki]

lemma starting_goto_of_not (hpc : pc.starting = false) :
    (s.goto i pc).starting = s.starting.erase i := by
  ext k
  rw [Finset.mem_erase, starting, Finset.mem_filter, starting, Finset.mem_filter]
  by_cases hki : k = i
  · simp [goto, hki, hpc]
  · simp [goto, hki]

/-- An admitted `start` is one more. -/
lemma card_starting_admitted (hi : i ∉ s.drawn) :
    ({ s with drawn := insert i s.drawn }.goto i .createSecret).starting.card
      = s.starting.card + 1 := by
  have hnot : i ∉ s.starting := fun h => hi (Finset.mem_filter.mp h).1
  rw [← Finset.card_insert_of_notMem hnot]
  congr 1
  ext k
  rw [Finset.mem_insert, starting, Finset.mem_filter, starting, Finset.mem_filter]
  by_cases hki : k = i
  · simp [goto, hki, StartPc.starting]
  · simp [goto, hki]

/-- A run that gives the job its handle, and is about no other. -/
def GetsJob (maxConcurrentJobs : ℤ) (i : RuntimeId) (s : Executor) : Prop :=
  ∃ t, Leads maxConcurrentJobs s t ∧ t.inflight = insert i s.inflight ∧
    t.starting = s.starting.erase i

lemma getsJob_of_goto (h : s.step maxConcurrentJobs l = some (t.goto i pc)) (hi : i ∈ s.starting)
    (hpc : pc.starting = true) (hinflight : t.inflight = s.inflight)
    (hstarting : t.starting = s.starting) (ht : GetsJob maxConcurrentJobs i (t.goto i pc)) :
    GetsJob maxConcurrentJobs i s := by
  obtain ⟨u, htu, hu, hu'⟩ := ht
  refine ⟨u, (Leads.of_step h).trans htu, hu.trans (congrArg _ hinflight), ?_⟩
  rw [hu', starting_goto_of_starting (hstarting ▸ hi) hpc, hstarting]

/-- **A `start` that has been admitted can get its job**, whatever the others do. -/
lemma getsJob_of_starting (hi : i ∈ s.starting) : GetsJob maxConcurrentJobs i s := by
  have hconnect : ∀ s : Executor, s.starts i = .connect → GetsJob maxConcurrentJobs i s := by
    intro s hpc
    exact ⟨(s.register i).goto i .returned,
      .of_step (l := .connect i welcoming) (if_pos hpc), rfl, starting_goto_of_not rfl⟩
  have hwait : ∀ s : Executor, i ∈ s.starting → s.starts i = .waitForPodIp →
      GetsJob maxConcurrentJobs i s := fun s hi hpc =>
    getsJob_of_goto (show s.step _ (.waitForPodIp i (.ok ())) = some (s.goto i .connect) from
      if_pos hpc) hi rfl rfl rfl (hconnect _ (Function.update_self ..))
  have hjob : ∀ s : Executor, i ∈ s.starting → s.starts i = .createJob →
      GetsJob maxConcurrentJobs i s := fun s hi hpc =>
    getsJob_of_goto (show s.step _ (.createJob i (.ok ())) = some (s.goto i .waitForPodIp) from
      if_pos hpc) hi rfl rfl rfl
      (hwait _ (by rwa [starting_goto_of_starting hi rfl]) (Function.update_self ..))
  cases hpc : s.starts i with
  | createSecret =>
      have hi' : i ∈ ((s.addSecret i).goto i .createJob).starting := by
        rw [starting_goto_of_starting (s := s.addSecret i) hi rfl]
        exact hi
      have h : s.step maxConcurrentJobs (.createSecret i (.created (.ok ())))
          = some ((s.addSecret i).goto i .createJob) := if_pos hpc
      exact getsJob_of_goto h hi rfl rfl rfl (hjob _ hi' (Function.update_self ..))
  | createJob => exact hjob s hi hpc
  | waitForPodIp => exact hwait s hi hpc
  | connect => exact hconnect s hpc
  | notCalled | deleteSecret | returned | failed =>
      rw [starting, Finset.mem_filter, hpc] at hi
      exact absurd hi.2 Bool.false_ne_true

/-- All the calls that are starting can get their jobs. -/
lemma leads_all_returned (h : (executor maxConcurrentJobs).Reachable s) :
    ∃ t, Leads maxConcurrentJobs s t ∧ t.inflight.card = s.inflight.card + s.starting.card := by
  induction hn : s.starting.card generalizing s with
  | zero => exact ⟨s, .refl, rfl⟩
  | succ n ih =>
      obtain ⟨i, hi⟩ := Finset.card_pos.mp (Nat.lt_of_lt_of_eq n.succ_pos hn.symm)
      obtain ⟨t, hst, hinflight, hstarting⟩ : GetsJob maxConcurrentJobs i s :=
        getsJob_of_starting hi
      have hv := Reachable.valid h
      have hnot : i ∉ s.inflight := fun hin => by
        have hpc := hv.mem_starting.mp hi
        rw [hv.not_starting hin] at hpc
        cases hpc
      have hcard : t.starting.card = n := by
        rw [hstarting, Finset.card_erase_of_mem hi, hn, Nat.add_sub_cancel]
      obtain ⟨u, htu, hu⟩ := ih (Reachable.leads h hst) hcard
      refine ⟨u, hst.trans htu, ?_⟩
      rw [hu, hinflight, Finset.card_insert_of_notMem hnot]
      omega

lemma not_kept_of_lost (hl : (s.job i).Lost) (hq : s.Quiet) : ¬s.Kept maxConcurrentJobs := by
  obtain ⟨hcreated, hdeleted, hinflight, -⟩ := hl
  intro hk
  rcases hk.leakFree hq i (of_decide_eq_true hcreated) with h | h
  · exact of_decide_eq_false hdeleted h
  · exact of_decide_eq_false hinflight h

/-- **Every other step leads to a state in which it is broken.** -/
theorem careless_breaks (hr : (executor maxConcurrentJobs).Reachable s)
    (hc : ¬Careful maxConcurrentJobs s l) (h : s.step maxConcurrentJobs l = some t) :
    ∃ u, Leads maxConcurrentJobs t u ∧ ¬u.Kept maxConcurrentJobs := by
  have hv := Reachable.valid hr
  have hr' := Reachable.leads hr (.of_step h)
  cases hf : Foreseen s l with
  | false =>
      obtain ⟨u, htu, hl, hq⟩ := settles_of_lost hr' (hv.lost_step hf h)
      exact ⟨u, htu, not_kept_of_lost hl hq⟩
  | true =>
      have hroom : ¬HasRoom maxConcurrentJobs s l := fun hroom => hc ⟨hroom, hf⟩
      cases l with
      | start i =>
          simp only [HasRoom, not_forall, not_lt] at hroom
          obtain ⟨hlt, hfull⟩ := hroom
          obtain ⟨u, htu, hu⟩ := leads_all_returned hr'
          refine ⟨u, htu, fun hk => ?_⟩
          have hlimit := hk.limit
          simp only [step, Option.ite_none_left_eq_some, Option.some.injEq] at h
          obtain ⟨hi, rfl⟩ := h
          rw [start, if_neg (by omega), card_starting_admitted hi] at hu
          have hinflight : ({ s with drawn := insert i s.drawn }.goto i .createSecret).inflight
              = s.inflight := rfl
          rw [hinflight] at hu
          omega
      | _ => exact absurd trivial hroom

end Executor

open Executor

/-- **When the executor keeps its limit and leaks no Secret**: the runs whose steps meet the
condition do, and each step that does not meet it leads to a state that does not. -/
theorem resources_kept_iff (maxConcurrentJobs : ℤ) :
    (0 ≤ maxConcurrentJobs → ∀ s, (executor maxConcurrentJobs).ReachableVia
      (Careful maxConcurrentJobs) s → s.Kept maxConcurrentJobs) ∧
    (maxConcurrentJobs < 0 → ∀ s : Executor, ¬s.Kept maxConcurrentJobs) ∧
    ∀ s l t, (executor maxConcurrentJobs).Reachable s → ¬Careful maxConcurrentJobs s l →
      (executor maxConcurrentJobs).step s l = some t →
      ∃ u, (executor maxConcurrentJobs).Leads (fun _ _ => True) t u ∧
        ¬u.Kept maxConcurrentJobs :=
  ⟨fun hmax _ h => kept_of_careful hmax h, fun hmax s hk => by have := hk.limit; omega,
    fun _ _ _ hr hc h => careless_breaks hr hc h⟩

/-- Two calls of `start` at once get a job each where there may be one; a call that is cancelled
while it creates the job leaves its Secret on the cluster. -/
theorem concurrent_and_cancelled_break :
    (∃ s, (executor 1).Reachable s ∧ s.inflight.card = 2) ∧
    ∃ s, (executor 50).Reachable s ∧ s.Quiet ∧ 0 ∈ s.created ∧ 0 ∉ s.deleted ∧ 0 ∉ s.inflight := by
  constructor
  · refine ⟨_, @System.Reachable.of_run _ _ (executor 1) [.start 0, .start 1,
      .createSecret 0 (.created (.ok ())), .createSecret 1 (.created (.ok ())),
      .createJob 0 (.ok ()), .createJob 1 (.ok ()), .waitForPodIp 0 (.ok ()),
      .waitForPodIp 1 (.ok ()), .connect 0 welcoming, .connect 1 welcoming]
      {} _ (.init rfl) rfl, rfl⟩
  · refine ⟨_, @System.Reachable.of_run _ _ (executor 50) [.start 0,
      .createSecret 0 (.created (.ok ())), .createJob 0 (.error .cancelled)]
      {} _ (.init rfl) rfl, ⟨fun i => ?_, rfl⟩, by decide, by decide, by decide⟩
    by_cases hi : i = 0
    · subst hi
      rfl
    · simp [advance, handle, goto, createSecret, addSecret, start, hi, StartPc.running,
        StartPc.starting, Exn.isException]

end GgRelay.K8sJob
