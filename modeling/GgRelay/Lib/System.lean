import Mathlib.Tactic

/-!
Labelled transition systems whose step is a partial function of the label: the label carries
every choice the environment makes, so a run is a list of labels and can be replayed.

* `System.run` replays a list of labels;
* `System.ReachableVia ok` collects the states of the runs all of whose steps meet the side
  condition `ok`, `System.Reachable` those of all runs;
* `ReachableVia.invariant` is the induction principle behind every safety statement, and
  `ReachableVia.invariant_of` the form that may use invariants already proved;
* `System.Leads` is the future of a state, `ReachableVia.stable` its induction principle;
* `ReachableVia.map` transports runs to a system that sees a part of the state, step by step, and
  `ReachableVia.map_leads` to one that needs several steps;
* `Reachable.of_run` and `ReachableVia.of_checkedRun` turn a replayed list of labels into a
  reachable state.
-/

namespace GgRelay

universe u v

/-- A transition system: initial states, and a step that is a partial function of the label. -/
structure System (σ : Type u) (ℓ : Type v) where
  init : σ → Prop
  step : σ → ℓ → Option σ

namespace System

variable {σ : Type u} {ℓ : Type v} (S : System σ ℓ)

/-- Replay a list of labels. -/
def run (s : σ) : List ℓ → Option σ
  | [] => some s
  | l :: ls => (S.step s l).bind fun t => run t ls

/-- The states of the runs whose every step meets `ok`. -/
inductive ReachableVia (ok : σ → ℓ → Prop) : σ → Prop
  | init {s : σ} : S.init s → ReachableVia ok s
  | step {s t : σ} {l : ℓ} :
      ReachableVia ok s → ok s l → S.step s l = some t → ReachableVia ok t

/-- The states of all runs. -/
def Reachable : σ → Prop := S.ReachableVia fun _ _ => True

variable {S}

/-- What holds initially and is kept by every admitted step holds along every admitted run. -/
theorem ReachableVia.invariant {ok : σ → ℓ → Prop} {I : σ → Prop}
    (hinit : ∀ s, S.init s → I s)
    (hstep : ∀ s l t, I s → ok s l → S.step s l = some t → I t) {s : σ}
    (h : S.ReachableVia ok s) : I s := by
  induction h with
  | init h0 => exact hinit _ h0
  | step _ hok hs ih => exact hstep _ _ _ ih hok hs

/-- The step of an invariant may use an invariant that is already known. -/
theorem ReachableVia.invariant_of {ok : σ → ℓ → Prop} {I J : σ → Prop}
    (hJ : ∀ s, S.ReachableVia ok s → J s) (hinit : ∀ s, S.init s → I s)
    (hstep : ∀ s l t, J s → I s → ok s l → S.step s l = some t → I t) {s : σ}
    (h : S.ReachableVia ok s) : I s := by
  induction h with
  | init h0 => exact hinit _ h0
  | step hr hok hs ih => exact hstep _ _ _ (hJ _ hr) ih hok hs

/-- A weaker side condition admits more runs. -/
lemma ReachableVia.mono {ok ok' : σ → ℓ → Prop} (hle : ∀ s l, ok s l → ok' s l) {s : σ}
    (h : S.ReachableVia ok s) : S.ReachableVia ok' s := by
  induction h with
  | init h0 => exact .init h0
  | step _ hok hs ih => exact .step ih (hle _ _ hok) hs

variable (S) in
/-- The state `t` can be reached from `s` by steps that meet `ok`. -/
def Leads (ok : σ → ℓ → Prop) : σ → σ → Prop :=
  Relation.ReflTransGen fun s t => ∃ l, ok s l ∧ S.step s l = some t

lemma Leads.mono {ok ok' : σ → ℓ → Prop} (hle : ∀ s l, ok s l → ok' s l) {s t : σ}
    (h : S.Leads ok s t) : S.Leads ok' s t := by
  induction h with
  | refl => exact .refl
  | tail _ hu ih =>
      obtain ⟨l, hok, hl⟩ := hu
      exact ih.tail ⟨l, hle _ _ hok, hl⟩

lemma ReachableVia.leads {ok : σ → ℓ → Prop} {s t : σ} (h : S.ReachableVia ok s)
    (hst : S.Leads ok s t) : S.ReachableVia ok t := by
  induction hst with
  | refl => exact h
  | tail _ hs ih =>
      obtain ⟨l, hok, hs⟩ := hs
      exact .step ih hok hs

/-- What a system does is seen by another: each admitted step is a run of admitted steps there. -/
lemma ReachableVia.map_leads {τ : Type*} {κ : Type*} {T : System τ κ} {ok : σ → ℓ → Prop}
    {ok' : τ → κ → Prop} (f : σ → τ) (hinit : ∀ s, S.init s → T.init (f s))
    (hstep : ∀ s l t, S.ReachableVia ok s → ok s l → S.step s l = some t →
      T.Leads ok' (f s) (f t)) {s : σ} (h : S.ReachableVia ok s) : T.ReachableVia ok' (f s) := by
  induction h with
  | init h0 => exact .init (hinit _ h0)
  | step hr hok hs ih => exact ih.leads (hstep _ _ _ hr hok hs)

lemma Leads.map {τ : Type*} {κ : Type*} {T : System τ κ} {ok : σ → ℓ → Prop} {ok' : τ → κ → Prop}
    (f : σ → τ) {s t : σ} (hs : S.ReachableVia ok s)
    (hstep : ∀ s l t, S.ReachableVia ok s → ok s l → S.step s l = some t →
      T.Leads ok' (f s) (f t)) (h : S.Leads ok s t) : T.Leads ok' (f s) (f t) := by
  induction h with
  | refl => exact .refl
  | tail hsu hu ih =>
      obtain ⟨l, hok, hl⟩ := hu
      exact ih.trans (hstep _ _ _ (hs.leads hsu) hok hl)

/-- What a system does is seen by another: each admitted step is an admitted step there, or none. -/
lemma ReachableVia.map {τ : Type*} {κ : Type*} {T : System τ κ} {ok : σ → ℓ → Prop}
    {ok' : τ → κ → Prop} (f : σ → τ) (hinit : ∀ s, S.init s → T.init (f s))
    (hstep : ∀ s l t, ok s l → S.step s l = some t →
      f t = f s ∨ ∃ k, ok' (f s) k ∧ T.step (f s) k = some (f t)) {s : σ}
    (h : S.ReachableVia ok s) : T.ReachableVia ok' (f s) := by
  refine h.map_leads f hinit fun s l t _ hok hs => ?_
  rcases hstep s l t hok hs with heq | hk
  · rw [heq]
    exact .refl
  · exact .single hk

/-- What an admitted step keeps, from an admitted state on, it keeps for good. -/
theorem ReachableVia.stable {ok : σ → ℓ → Prop} {P : σ → Prop} {s t : σ}
    (h : S.ReachableVia ok s)
    (hstep : ∀ s l t, S.ReachableVia ok s → P s → ok s l → S.step s l = some t → P t)
    (hst : S.Leads ok s t) (hs : P s) : P t := by
  induction hst with
  | refl => exact hs
  | tail hsu hs' ih =>
      obtain ⟨l, hok, hl⟩ := hs'
      exact hstep _ _ _ (h.leads hsu) ih hok hl

lemma ReachableVia.reachable {ok : σ → ℓ → Prop} {s : σ} (h : S.ReachableVia ok s) :
    S.Reachable s :=
  h.mono fun _ _ _ => trivial

/-- A replayed list of labels ends in a reachable state. -/
lemma Reachable.of_run : ∀ {ls : List ℓ} {s t : σ}, S.Reachable s → S.run s ls = some t →
    S.Reachable t
  | [], s, t, hs, h => by
      cases h
      exact hs
  | l :: ls, s, t, hs, h => by
      obtain ⟨u, hu, ht⟩ := Option.bind_eq_some_iff.mp h
      exact Reachable.of_run (.step hs trivial hu) ht

lemma Leads.of_run : ∀ {ls : List ℓ} {s t : σ}, S.run s ls = some t →
    S.Leads (fun _ _ => True) s t
  | [], s, t, h => by
      cases h
      exact .refl
  | l :: ls, s, t, h => by
      obtain ⟨u, hu, ht⟩ := Option.bind_eq_some_iff.mp h
      exact .head ⟨l, trivial, hu⟩ (Leads.of_run ht)

section Checked

variable (S) (ok : σ → ℓ → Prop) [∀ s l, Decidable (ok s l)]

/-- Replay a list of labels, as long as every step meets `ok`. -/
def checkedRun (s : σ) : List ℓ → Option σ
  | [] => some s
  | l :: ls => if ok s l then (S.step s l).bind fun t => checkedRun t ls else none

variable {S ok}

/-- A list of labels that is replayed with its side condition checked is an admitted run. -/
lemma ReachableVia.of_checkedRun : ∀ {ls : List ℓ} {s t : σ}, S.ReachableVia ok s →
    S.checkedRun ok s ls = some t → S.ReachableVia ok t
  | [], s, t, hs, h => by
      cases h
      exact hs
  | l :: ls, s, t, hs, h => by
      rw [checkedRun] at h
      split at h
      · rename_i hok
        obtain ⟨u, hu, ht⟩ := Option.bind_eq_some_iff.mp h
        exact ReachableVia.of_checkedRun (.step hs hok hu) ht
      · simp at h

end Checked

end System

end GgRelay
