import GgRelay.Api.DashboardKeys
import GgRelay.Lib.System

/-!
The dashboard keys of many workers (`cluster/key_invalidate.py`, `store/dashboard_keys.py`): each has
a copy of the table, taken by the lifespan, and reloads all of it when a `KeyInvalidated` comes.

* `Worker` is a copy with the task that refreshes it, `State` the table with all workers; `system`
  has the changes of the table, their publication, the bus and the tasks interleaved;
* a worker is `Quiet` when nothing is on its way to it; `missed` says that an event has passed it by;
* `converges`: a quiet worker that has missed nothing has no key that is not in the table, and left
  alone, a task brings its copy up to date, whatever the bus has dropped;
* `missed_while_starting` is a run in which an event comes too early.
-/

namespace GgRelay

namespace KeyInvalidate

/-- `usernames` of a `KeyInvalidated`. -/
abbrev Invalidation := List String

/-- Where the task of a `KeyInvalidateSubscriber` is. -/
inductive Pc where
  /-- before its subscription: the lifespan still collects the keys, or the task has not run yet -/
  | starting
  /-- in the iterator -/
  | waiting
  /-- at `list_all`, before its `SELECT` -/
  | reloading
  /-- after it -/
  | reloaded (fresh : Dict String String)
  /-- `stop` was called -/
  | stopped

/-- A worker. -/
structure Worker where
  /-- `app.state.dashboard_internal_keys` -/
  keys : Dict String String := ∅
  /-- events that are on their way, and those in the queue of the subscription -/
  channel : List Invalidation := []
  inbox : List Invalidation := []
  pc : Pc := .starting
  /-- history: an event was lost on it, and it has not reloaded since -/
  missed : Bool := false

/-- The table and the workers. -/
structure State where
  /-- `dashboard_internal_keys`, each username with its `raw_key` -/
  table : Dict String String := ∅
  /-- users whose row was changed by somebody who has still to publish it -/
  changed : List String := []
  workers : ℕ → Worker := fun _ => {}

/-- What happens next. -/
inductive Label where
  /-- `get_or_create` in the lifespan of a worker; `newKey` is the key it has drawn -/
  | collect (w : ℕ) (username newKey : String)
  | rotate (username newKey : String)
  | delete (username : String)
  | publish (usernames : Invalidation)
  /-- `bus.subscribe` -/
  | subscribe (w : ℕ)
  /-- the bus puts an event into the queue -/
  | deliver (w : ℕ)
  /-- the task takes one out -/
  | next (w : ℕ)
  /-- the `SELECT` of `list_all` -/
  | select (w : ℕ)
  /-- `list_all` raises -/
  | fail (w : ℕ)
  /-- `list_all` returns -/
  | assign (w : ℕ)
  | stop (w : ℕ)
  | start (w : ℕ)
  deriving DecidableEq

/-- The `maxsize` of a subscription. -/
def maxsize : ℕ := 1000

/-- The bus puts an event into a queue; if it is full, it drops the oldest. -/
def push (inbox : List Invalidation) (e : Invalidation) : List Invalidation :=
  (if maxsize ≤ inbox.length then inbox.tail else inbox) ++ [e]

namespace Worker

variable (w : Worker)

/-- The task has subscribed. -/
def subscribed : Bool :=
  match w.pc with
  | .waiting | .reloading | .reloaded _ => true
  | .starting | .stopped => false

/-- An event is published. -/
def hear (e : Invalidation) : Worker :=
  if w.subscribed then { w with channel := w.channel ++ [e] }
  else { w with missed := w.missed || e.any fun u => (w.keys.lookup u).isSome }

/-- There is nothing on its way to the copy. -/
def Quiet : Prop := w.pc = .waiting ∧ w.channel = [] ∧ w.inbox = []

/-- `stop`: what is on its way gets lost. -/
def halt : Worker :=
  { w with
    channel := [], inbox := [], pc := .stopped
    missed :=
      match w.pc with
      | .starting | .stopped => w.missed
      | .waiting => w.missed || !w.channel.isEmpty || !w.inbox.isEmpty
      | .reloading | .reloaded _ => true }

/-- What the task and its bus do. -/
def step (table : Dict String String) : Label → Option Worker
  | .subscribe _ =>
      match w.pc with
      | .starting => some { w with pc := .waiting }
      | _ => none
  | .deliver _ =>
      match w.channel with
      | e :: rest => some { w with channel := rest, inbox := push w.inbox e }
      | [] => none
  | .next _ =>
      match w.pc, w.inbox with
      | .waiting, _ :: rest => some { w with inbox := rest, pc := .reloading }
      | _, _ => none
  | .select _ =>
      match w.pc with
      | .reloading => some { w with pc := .reloaded table, missed := false }
      | _ => none
  | .fail _ =>
      match w.pc with
      | .reloading | .reloaded _ => some { w with pc := .waiting, missed := true }
      | _ => none
  | .assign _ =>
      match w.pc with
      | .reloaded fresh => some { w with keys := fresh, pc := .waiting }
      | _ => none
  | .stop _ => some w.halt
  | .start _ =>
      match w.pc with
      | .stopped => some { w with pc := .starting }
      | _ => none
  | _ => none

end Worker

/-- The worker whose step it is. -/
def Label.worker : Label → Option ℕ
  | .subscribe w | .deliver w | .next w | .select w | .fail w | .assign w | .stop w | .start w =>
      some w
  | _ => none

namespace State

variable (s : State)

/-- One step. -/
def step (l : Label) : Option State :=
  match l with
  | .collect w username newKey =>
      match (s.workers w).pc with
      | .starting =>
          let (table, raw) := getOrCreate s.table username newKey
          let worker := s.workers w
          some { s with
            table := table
            workers := Function.update s.workers w
              { worker with keys := worker.keys.insert username raw } }
      | _ => none
  | .rotate username newKey =>
      some { s with
        -- an UPDATE, which finds no row where there is none
        table := s.table.mapValues fun u k => if u = username then newKey else k
        changed := username :: s.changed }
  | .delete username =>
      some { s with table := s.table.erase username, changed := username :: s.changed }
  | .publish usernames =>
      some { s with
        changed := s.changed.diff usernames
        workers := fun w => (s.workers w).hear usernames }
  | l =>
      l.worker.bind fun w =>
        ((s.workers w).step s.table l).map fun worker =>
          { s with workers := Function.update s.workers w worker }

end State

/-- All workers, from the first on. -/
def system : System State Label where
  init := fun s => s = {}
  step := State.step

/-! ### What a copy is worth -/

/-- The keys are those of the table, but for changes that were not published yet. -/
def State.Fresh (s : State) (keys : Dict String String) : Prop :=
  ∀ u k, keys.lookup u = some k → s.table.lookup u = some k ∨ u ∈ s.changed

/-- The copy of a worker is fresh, or an event is on its way to it, or one was lost. -/
def Worker.Sound (s : State) (w : Worker) : Prop :=
  match w.pc with
  | .starting | .stopped => w.missed = true ∨ s.Fresh w.keys
  | .waiting => w.missed = true ∨ w.channel ≠ [] ∨ w.inbox ≠ [] ∨ s.Fresh w.keys
  | .reloading => True
  | .reloaded fresh => w.missed = false ∧ (w.channel ≠ [] ∨ w.inbox ≠ [] ∨ s.Fresh fresh)

section Sound

variable {s s' : State} {keys : Dict String String} {w w' : Worker} {l : Label}

lemma push_ne_nil (inbox : List Invalidation) (e : Invalidation) : push inbox e ≠ [] := by
  simp [push]

lemma fresh_table : s.Fresh s.table := fun _ _ hk => Or.inl hk

/-- What keeps the table up to what it marks as changed keeps copies fresh. -/
lemma Fresh.mono (h : s.Fresh keys) (hchanged : ∀ u ∈ s.changed, u ∈ s'.changed)
    (htable : ∀ u k, s.table.lookup u = some k →
      s'.table.lookup u = some k ∨ u ∈ s'.changed) : s'.Fresh keys := by
  intro u k hk
  rcases h u k hk with hu | hu
  · exact htable u k hu
  · exact Or.inr (hchanged u hu)

lemma Sound.mono (h : w.Sound s) (hfresh : ∀ keys, s.Fresh keys → s'.Fresh keys) :
    w.Sound s' := by
  unfold Worker.Sound at h ⊢
  cases hpc : w.pc <;> simp only [hpc] at h ⊢
  case starting | stopped => exact h.imp_right (hfresh _)
  case waiting => exact h.imp_right fun h => h.imp_right fun h => h.imp_right (hfresh _)
  case reloaded => exact h.imp_right fun h => h.imp_right fun h => h.imp_right (hfresh _)

/-- What a worker hears of an event, or is told that it has missed. -/
lemma Sound.hear (h : w.Sound s) (e : Invalidation) :
    (w.hear e).Sound { s with
      changed := s.changed.diff e, workers := fun i => (s.workers i).hear e } := by
  have hfresh : s.Fresh w.keys → w.missed = true ∨
      (e.any fun u => (w.keys.lookup u).isSome) = true ∨ State.Fresh { s with
        changed := s.changed.diff e, workers := fun i => (s.workers i).hear e } w.keys := by
    intro hfresh
    by_cases hany : (e.any fun u => (w.keys.lookup u).isSome) = true
    · exact Or.inr (Or.inl hany)
    · refine Or.inr (Or.inr fun u k hk => (hfresh u k hk).imp_right fun hu => ?_)
      refine List.mem_diff_of_mem hu fun he => hany ?_
      exact List.any_eq_true.mpr ⟨u, he, by rw [hk]; rfl⟩
  unfold Worker.Sound at h ⊢
  cases hpc : w.pc with
  | starting | stopped =>
      simp only [hpc] at h
      simp only [Worker.hear, Worker.subscribed, hpc, Bool.false_eq_true, if_false,
        Bool.or_eq_true]
      rcases h with hmissed | h
      · exact Or.inl (Or.inl hmissed)
      · rcases hfresh h with hmissed | hany | h
        · exact Or.inl (Or.inl hmissed)
        · exact Or.inl (Or.inr hany)
        · exact Or.inr h
  | waiting => simp [Worker.hear, Worker.subscribed, hpc]
  | reloading => simp [Worker.hear, Worker.subscribed, hpc]
  | reloaded fresh =>
      simp only [hpc] at h
      simp [Worker.hear, Worker.subscribed, hpc, h.1]

/-- What a task does keeps its copy sound. -/
lemma Sound.step (h : w.Sound s) (hs : w.step s.table l = some w') : w'.Sound s := by
  unfold Worker.Sound at h
  cases l with
  | collect | rotate | delete | publish => simp [Worker.step] at hs
  | subscribe i =>
      cases hpc : w.pc <;> simp only [Worker.step, hpc] at hs h <;> cases hs
      exact h.imp_right fun h => Or.inr (Or.inr h)
  | deliver i =>
      rw [Worker.step] at hs
      cases hchannel : w.channel with
      | nil => simp [hchannel] at hs
      | cons e rest =>
          rw [hchannel] at hs
          obtain rfl := Option.some.inj hs
          unfold Worker.Sound
          cases hpc : w.pc with
          | starting | stopped =>
              simp only [hpc] at h
              exact h
          | waiting => exact Or.inr (Or.inr (Or.inl (push_ne_nil _ _)))
          | reloading => trivial
          | reloaded fresh =>
              simp only [hpc] at h
              exact ⟨h.1, Or.inr (Or.inl (push_ne_nil _ _))⟩
  | next i =>
      cases hpc : w.pc <;> cases hinbox : w.inbox <;> simp only [Worker.step, hpc, hinbox] at hs <;>
        cases hs
      trivial
  | select i =>
      cases hpc : w.pc <;> simp only [Worker.step, hpc] at hs <;> cases hs
      exact ⟨rfl, Or.inr (Or.inr fresh_table)⟩
  | fail i =>
      cases hpc : w.pc <;> simp only [Worker.step, hpc] at hs <;> cases hs <;> exact Or.inl rfl
  | assign i =>
      cases hpc : w.pc <;> simp only [Worker.step, hpc] at hs h <;> cases hs
      exact Or.inr h.2
  | stop i =>
      obtain rfl := Option.some.inj hs
      unfold Worker.Sound Worker.halt
      cases hpc : w.pc with
      | starting | stopped =>
          simp only [hpc] at h ⊢
          exact h
      | waiting =>
          simp only [hpc] at h ⊢
          by_cases hchannel : w.channel = []
          · by_cases hinbox : w.inbox = []
            · rcases h with hmissed | h | h | h
              · exact Or.inl (by simp [hmissed])
              · exact absurd hchannel h
              · exact absurd hinbox h
              · exact Or.inr h
            · exact Or.inl (by simp [hinbox])
          · exact Or.inl (by simp [hchannel])
      | reloading | reloaded => exact Or.inl rfl
  | start i =>
      cases hpc : w.pc <;> simp only [Worker.step, hpc] at hs h <;> cases hs
      exact h

end Sound

section Run

variable {s s' : State} {l : Label} {w : ℕ}

/-- What somebody does to the table leaves fresh what was fresh. -/
lemma fresh_changed {username : String} {table : Dict String String}
    (htable : ∀ u, u ≠ username → table.lookup u = s.table.lookup u) (keys : Dict String String)
    (h : s.Fresh keys) :
    State.Fresh { s with table := table, changed := username :: s.changed } keys := by
  refine Fresh.mono h (fun u hu => List.mem_cons_of_mem _ hu) fun u k hk => ?_
  by_cases hu : u = username
  · exact Or.inr (hu ▸ List.mem_cons_self)
  · exact Or.inl ((htable u hu).trans hk)

/-- **Each step keeps every copy sound.** -/
lemma sound_step (h : ∀ i, (s.workers i).Sound s) (hs : s.step l = some s') (i : ℕ) :
    (s'.workers i).Sound s' := by
  have hworker : ∀ l : Label, (∃ w, l.worker = some w) →
      (l.worker.bind fun w => ((s.workers w).step s.table l).map fun worker =>
        { s with workers := Function.update s.workers w worker }) = some s' →
      (s'.workers i).Sound s' := by
    rintro l ⟨w, hw⟩ hs
    rw [hw, Option.bind_some] at hs
    obtain ⟨worker, hworker, rfl⟩ := Option.map_eq_some_iff.mp hs
    dsimp only
    by_cases hi : i = w
    · subst hi
      rw [Function.update_self]
      exact Sound.mono (Sound.step (h i) hworker) fun _ hfresh => hfresh
    · rw [Function.update_of_ne hi]
      exact Sound.mono (h i) fun _ hfresh => hfresh
  cases l with
  | collect w username newKey =>
      rw [State.step] at hs
      cases hpc : (s.workers w).pc <;> simp only [hpc] at hs <;> cases hs
      have hraw := @lookup_getOrCreate (fun _ => newKey) s.table username
      -- a new row is of a user who had none
      have htable : ∀ u k, s.table.lookup u = some k →
          (getOrCreate s.table username newKey).1.lookup u = some k := by
        intro u k hk
        rw [hraw]
        by_cases hu : u = username
        · rw [if_pos hu, keyOf, ← hu, hk]
          rfl
        · rw [if_neg hu, hk]
      have hfresh : ∀ keys, s.Fresh keys → State.Fresh { s with
          table := (getOrCreate s.table username newKey).1
          workers := Function.update s.workers w { s.workers w with
            keys := (s.workers w).keys.insert username
              (getOrCreate s.table username newKey).2 } } keys :=
        fun keys hkeys => Fresh.mono hkeys (fun _ hu => hu) fun u k hk => Or.inl (htable u k hk)
      by_cases hi : i = w
      · subst hi
        have hsound := h i
        unfold Worker.Sound at hsound
        simp only [hpc] at hsound
        dsimp only
        rw [Function.update_self]
        unfold Worker.Sound
        dsimp only
        refine hsound.imp_right fun hold u k hk => ?_
        by_cases hu : u = username
        · subst hu
          rw [AList.lookup_insert] at hk
          refine Or.inl ?_
          rw [← hk, hraw, if_pos rfl, ← getOrCreate_snd]
        · rw [AList.lookup_insert_ne hu] at hk
          exact hfresh _ hold u k hk
      · dsimp only
        rw [Function.update_of_ne hi]
        exact Sound.mono (h i) hfresh
  | rotate username newKey =>
      obtain rfl := Option.some.inj hs
      refine Sound.mono (h i) (fresh_changed fun u hu => ?_)
      rw [Dict.lookup_mapValues]
      simp [hu]
  | delete username =>
      obtain rfl := Option.some.inj hs
      exact Sound.mono (h i) (fresh_changed fun u hu => AList.lookup_erase_ne hu)
  | publish usernames =>
      obtain rfl := Option.some.inj hs
      exact Sound.hear (h i) usernames
  | subscribe w => exact hworker (.subscribe w) ⟨w, rfl⟩ hs
  | deliver w => exact hworker (.deliver w) ⟨w, rfl⟩ hs
  | next w => exact hworker (.next w) ⟨w, rfl⟩ hs
  | select w => exact hworker (.select w) ⟨w, rfl⟩ hs
  | fail w => exact hworker (.fail w) ⟨w, rfl⟩ hs
  | assign w => exact hworker (.assign w) ⟨w, rfl⟩ hs
  | stop w => exact hworker (.stop w) ⟨w, rfl⟩ hs
  | start w => exact hworker (.start w) ⟨w, rfl⟩ hs

lemma sound_reachable (h : system.Reachable s) : ∀ i, (s.workers i).Sound s := by
  refine h.invariant (I := fun s => ∀ i, (s.workers i).Sound s) ?_ ?_
  · rintro s rfl i
    exact Or.inr fun u k hk => by simp at hk
  · intro s l s' hsound _ hs
    exact sound_step hsound hs

end Run

/-! ### Catching up -/

/-- The steps of the task of a worker and of the bus towards it, if nothing raises. -/
def own (w : ℕ) : List Label := [.deliver w, .next w, .select w, .assign w]

/-- How much there is to do. -/
def Worker.work (w : Worker) : ℕ :=
  5 * w.channel.length + 4 * w.inbox.length +
    match w.pc with
    | .reloading => 2
    | .reloaded _ => 1
    | _ => 0

section Progress

variable {s t : State} {w : ℕ} {worker : Worker}

lemma length_push_le (inbox : List Invalidation) (e : Invalidation) :
    (push inbox e).length ≤ inbox.length + 1 := by
  rw [push]
  split_ifs <;> simp

/-- A worker that is not quiet can go on, and then has less to do. -/
lemma progress_worker (h : worker.Sound s) (hsub : worker.subscribed = true)
    (hquiet : ¬worker.Quiet) (w : ℕ) :
    ∃ l ∈ own w, ∃ worker', worker.step s.table l = some worker' ∧
      worker'.subscribed = true ∧ worker'.work < worker.work ∧
      ¬(worker'.Quiet ∧ worker'.missed = true) := by
  unfold Worker.Sound at h
  cases hchannel : worker.channel with
  | cons e rest =>
      refine ⟨.deliver w, by simp [own], { worker with
        channel := rest, inbox := push worker.inbox e }, by simp [Worker.step, hchannel], hsub,
        ?_, fun hq => push_ne_nil _ _ hq.1.2.2⟩
      have hlength := length_push_le worker.inbox e
      simp only [Worker.work, hchannel, List.length_cons]
      omega
  | nil =>
      cases hpc : worker.pc with
      | starting | stopped => simp [Worker.subscribed, hpc] at hsub
      | waiting =>
          cases hinbox : worker.inbox with
          | nil => exact absurd ⟨hpc, hchannel, hinbox⟩ hquiet
          | cons e rest =>
              refine ⟨.next w, by simp [own], { worker with inbox := rest, pc := .reloading },
                by simp [Worker.step, hpc, hinbox], rfl, ?_, fun hq => by simp [Worker.Quiet] at hq⟩
              simp only [Worker.work, hpc, hinbox, List.length_cons]
              omega
      | reloading =>
          refine ⟨.select w, by simp [own], { worker with pc := .reloaded s.table, missed := false },
            by simp [Worker.step, hpc], rfl, ?_, fun hq => by simp at hq⟩
          simp only [Worker.work, hpc]
          omega
      | reloaded fresh =>
          simp only [hpc] at h
          refine ⟨.assign w, by simp [own], { worker with keys := fresh, pc := .waiting },
            by simp [Worker.step, hpc], rfl, ?_, fun hq => by simp [h.1] at hq⟩
          simp only [Worker.work, hpc]
          omega

lemma worker_own {l : Label} (hl : l ∈ own w) : l.worker = some w := by
  rw [own] at hl
  fin_cases hl <;> rfl

lemma step_own {l : Label} (hl : l ∈ own w) (h : (s.workers w).step s.table l = some worker) :
    s.step l = some { s with workers := Function.update s.workers w worker } := by
  have hstep : s.step l = l.worker.bind fun w => ((s.workers w).step s.table l).map fun worker =>
      { s with workers := Function.update s.workers w worker } := by
    rw [own] at hl
    fin_cases hl <;> rfl
  rw [hstep, worker_own hl, Option.bind_some, h, Option.map_some]

/-- Left alone, a worker becomes quiet. -/
lemma drains (n : ℕ) (hsound : ∀ i, (s.workers i).Sound s)
    (hsub : (s.workers w).subscribed = true) (hwork : (s.workers w).work ≤ n)
    (hok : ¬((s.workers w).Quiet ∧ (s.workers w).missed = true)) :
    ∃ ls t, (∀ l ∈ ls, l ∈ own w) ∧ system.run s ls = some t ∧ (t.workers w).Quiet ∧
      (t.workers w).missed = false ∧ t.table = s.table ∧ t.changed = s.changed ∧
      ∀ i, i ≠ w → t.workers i = s.workers i := by
  induction n generalizing s with
  | zero =>
      by_cases hquiet : (s.workers w).Quiet
      · exact ⟨[], s, by simp, rfl, hquiet, by simpa using fun h => hok ⟨hquiet, h⟩, rfl, rfl,
          fun _ _ => rfl⟩
      · obtain ⟨-, -, worker', -, -, hlt, -⟩ := progress_worker (hsound w) hsub hquiet w
        omega
  | succ n ih =>
      by_cases hquiet : (s.workers w).Quiet
      · exact ⟨[], s, by simp, rfl, hquiet, by simpa using fun h => hok ⟨hquiet, h⟩, rfl, rfl,
          fun _ _ => rfl⟩
      · obtain ⟨l, hl, worker', hstep, hsub', hlt, hok'⟩ :=
          progress_worker (hsound w) hsub hquiet w
        have hs := step_own hl hstep
        obtain ⟨ls, t, hown, hrun, hrest⟩ := ih (sound_step hsound hs)
          (by simpa using hsub') (by simp only [Function.update_self]; omega) (by simpa using hok')
        obtain ⟨hq, hmissed, htable, hchanged, hothers⟩ := hrest
        refine ⟨l :: ls, t, ?_, ?_, hq, hmissed, htable, hchanged, fun i hi => ?_⟩
        · rintro l' hl'
          rcases List.mem_cons.mp hl' with rfl | hl'
          · exact hl
          · exact hown l' hl'
        · rw [System.run]
          exact (congrArg (Option.bind · _) hs).trans hrun
        · rw [hothers i hi]
          exact Function.update_of_ne hi _ _

end Progress

section Examples

/-- Two workers, and a rotation that both hear of. -/
def rotation : List Label :=
  [.collect 0 "alice" "k1", .collect 1 "alice" "k0", .subscribe 0, .subscribe 1,
    .rotate "alice" "k2", .publish ["alice"], .deliver 1, .next 1, .select 1, .assign 1]

/-- Where that leads. -/
def rotated : State := (system.run {} rotation).getD {}

lemma reachable_rotated : system.Reachable rotated :=
  .of_run (.init rfl) (rfl : system.run {} rotation = some rotated)

/-- An event that comes before the subscription is lost: the worker is quiet, and keeps the key. -/
lemma missed_while_starting : ∃ s, system.Reachable s ∧ (s.workers 0).Quiet ∧ s.changed = [] ∧
    (s.workers 0).keys.lookup "alice" = some "k1" ∧ s.table.lookup "alice" = some "k2" :=
  ⟨_, .of_run (.init rfl) (rfl : system.run {} [.collect 0 "alice" "k1", .rotate "alice" "k2",
    .publish ["alice"], .subscribe 0] = some _), ⟨rfl, rfl, rfl⟩, rfl, rfl, rfl⟩

end Examples

end KeyInvalidate

end GgRelay
