import GgRelay.Lib.System

/-!
What every run comes to, whatever the order of its steps.

* `System.Inevitably ok P s`: every run from `s` by steps that meet `ok` gets to `P`, and none stops
  before it does;
* `inevitably_of_measure` proves it from an invariant, a measure and the absence of deadlocks,
  `not_inevitably_of_trap` refutes it by a set of states that a run can stay in.
-/

namespace GgRelay

namespace System

universe u v

variable {σ : Type u} {ℓ : Type v} (S : System σ ℓ)

/-- Every admitted run gets to `P`. -/
inductive Inevitably (ok : ℓ → Prop) (P : σ → Prop) : σ → Prop
  | here {s : σ} : P s → Inevitably ok P s
  | next {s : σ} : (∃ l t, ok l ∧ S.step s l = some t) →
      (∀ l t, ok l → S.step s l = some t → Inevitably ok P t) → Inevitably ok P s

variable {S} {ok : ℓ → Prop} {P : σ → Prop}

/-- **Progress**: where an invariant excludes deadlocks and every step makes a measure smaller. -/
theorem inevitably_of_measure {I : σ → Prop} (μ : σ → ℕ)
    (hstep : ∀ s l t, I s → ok l → S.step s l = some t → I t ∧ μ t < μ s)
    (hprogress : ∀ s, I s → ¬P s → ∃ l t, ok l ∧ S.step s l = some t) {s : σ} (hs : I s) :
    S.Inevitably ok P s := by
  induction hn : μ s using Nat.strong_induction_on generalizing s with
  | _ n ih =>
      by_cases hP : P s
      · exact .here hP
      · refine .next (hprogress s hs hP) fun l t hok ht => ?_
        obtain ⟨hI, hlt⟩ := hstep s l t hs hok ht
        exact ih (μ t) (hn ▸ hlt) hI rfl

/-- **Deadlock**: a run stays in states outside of `P`, or stops in one. -/
theorem not_inevitably_of_trap {J : σ → Prop} (hP : ∀ s, J s → ¬P s)
    (hstay : ∀ s, J s → (∃ l t, ok l ∧ S.step s l = some t) →
      ∃ l t, ok l ∧ S.step s l = some t ∧ J t) {s : σ} (hs : J s) : ¬S.Inevitably ok P s := by
  intro h
  induction h with
  | here h => exact hP _ hs h
  | next hsome _ ih =>
      obtain ⟨l, t, hok, ht, hJ⟩ := hstay _ hs hsome
      exact ih l t hok ht hJ

end System

end GgRelay
