import Mathlib.Tactic

/-!
Operations that check first and act later, on a state that others change in between.

* `CheckThenAct` has the check of an operation, its action, which may refuse, and the states in
  which it is closed: it refuses there, and always will;
* `Due`: the operation is allowed or closed; what was allowed once is due from then on (`Due.act`);
* `Performs`: operations one after the other, each with its check and its action in one step;
  `Performs.act` is the point of it all: an operation that is due when it acts might as well check
  there;
* a log says whose each operation is: `StateAt` is the state after so many of them, `Idle` says that
  a client has none in it, `Effect` that it has one, and where.
-/

namespace GgRelay

universe u v

/-- Operations on a state, with a check that goes before the action. -/
structure CheckThenAct (σ : Type u) (ω : Type v) where
  allowed : σ → ω → Prop
  /-- the action; `none` where it refuses -/
  act : σ → ω → Option σ
  closed : σ → ω → Prop
  act_of_closed : ∀ {s : σ} {o : ω}, closed s o → act s o = none
  /-- what is allowed stays so until it is closed -/
  stable : ∀ {s t : σ} {o o' : ω}, act s o' = some t → allowed s o → allowed t o ∨ closed t o
  closed_stable : ∀ {s t : σ} {o o' : ω}, act s o' = some t → closed s o → closed t o

namespace CheckThenAct

variable {σ : Type u} {ω : Type v} (G : CheckThenAct σ ω)

/-- The operation is still allowed, or refuses. -/
def Due (s : σ) (o : ω) : Prop := G.allowed s o ∨ G.closed s o

/-- The operations lead from one state to another, each checked where it acts. -/
inductive Performs (s₀ : σ) : List ω → σ → Prop
  | nil : Performs s₀ [] s₀
  | snoc {os : List ω} {s t : σ} {o : ω} :
      Performs s₀ os s → G.allowed s o → G.act s o = some t → Performs s₀ (os ++ [o]) t

variable {G} {s₀ s t : σ} {o o' : ω} {os : List ω}

/-- Whatever the others do, an operation that is due stays so. -/
lemma Due.act (h : G.Due s o) (ho : G.act s o' = some t) : G.Due t o :=
  h.elim (G.stable ho) fun hclosed => Or.inr (G.closed_stable ho hclosed)

/-- An operation that is due and does not refuse is allowed. -/
lemma Due.allowed (h : G.Due s o) (ho : G.act s o = some t) : G.allowed s o :=
  h.resolve_right fun hclosed => by simp [G.act_of_closed hclosed] at ho

/-- **An operation that was checked before it acts might as well check where it acts.** -/
theorem Performs.act (h : G.Performs s₀ os s) (hdue : G.Due s o) (ho : G.act s o = some t) :
    G.Performs s₀ (os ++ [o]) t :=
  .snoc h (hdue.allowed ho) ho

/-- What holds at first and is kept by every operation that is checked where it acts. -/
theorem Performs.invariant {I : List ω → σ → Prop} (h : G.Performs s₀ os s) (hnil : I [] s₀)
    (hsnoc : ∀ os s o t, I os s → G.allowed s o → G.act s o = some t → I (os ++ [o]) t) :
    I os s := by
  induction h with
  | nil => exact hnil
  | snoc _ hallowed hact ih => exact hsnoc _ _ _ _ ih hallowed hact

/-! ### Logs -/

section Log

variable {log : List (Option ℕ × ω)} {x : Option ℕ × ω} {i n : ℕ}

variable (G s₀) in
/-- The state after the first `n` operations of a log. -/
def StateAt (log : List (Option ℕ × ω)) (n : ℕ) (s : σ) : Prop :=
  n ≤ log.length ∧ G.Performs s₀ ((log.take n).map Prod.snd) s

/-- The client has no operation in the log. -/
def Idle (log : List (Option ℕ × ω)) (i : ℕ) : Prop := ∀ o, (some i, o) ∉ log

variable (G s₀) in
/-- The client has one operation in the log, the `n`-th, and this is the state before it. -/
structure Effect (log : List (Option ℕ × ω)) (i n : ℕ) (o : ω) (s : σ) : Prop where
  here : log[n]? = some (some i, o)
  once : ∀ m o', log[m]? = some (some i, o') → m = n
  before : G.StateAt s₀ log n s

lemma StateAt.now (h : G.Performs s₀ (log.map Prod.snd) s) : G.StateAt s₀ log log.length s :=
  ⟨le_rfl, by rwa [List.take_length]⟩

lemma StateAt.append (h : G.StateAt s₀ log n s) : G.StateAt s₀ (log ++ [x]) n s :=
  ⟨by rw [List.length_append]; exact h.1.trans (Nat.le_add_right _ _),
    by rw [List.take_append_of_le_length h.1]; exact h.2⟩

lemma Idle.append (h : Idle log i) (hx : x.1 ≠ some i) : Idle (log ++ [x]) i := by
  intro o ho
  rcases List.mem_append.mp ho with ho | ho
  · exact h o ho
  · obtain rfl := List.mem_singleton.mp ho
    exact hx rfl

lemma Effect.append (h : G.Effect s₀ log i n o s) (hx : x.1 ≠ some i) :
    G.Effect s₀ (log ++ [x]) i n o s where
  here := by
    obtain ⟨hn, -⟩ := List.getElem?_eq_some_iff.mp h.here
    rw [List.getElem?_append_left hn, h.here]
  once := by
    intro m o' hm
    rcases lt_or_ge m log.length with hlt | hge
    · rw [List.getElem?_append_left hlt] at hm
      exact h.once m o' hm
    · rw [List.getElem?_append_right hge, List.getElem?_singleton] at hm
      split_ifs at hm
      obtain rfl := Option.some.inj hm
      exact absurd rfl hx
  before := h.before.append

/-- The first operation of a client. -/
lemma Effect.last (h : G.Performs s₀ (log.map Prod.snd) s) (hidle : Idle log i) :
    G.Effect s₀ (log ++ [(some i, o)]) i log.length o s where
  here := List.getElem?_concat_length
  once := by
    intro m o' hm
    rcases lt_or_ge m log.length with hlt | hge
    · rw [List.getElem?_append_left hlt] at hm
      exact absurd (List.mem_of_getElem? hm) (hidle o')
    · rw [List.getElem?_append_right hge, List.getElem?_singleton] at hm
      split_ifs at hm with hzero
      omega
  before := (StateAt.now h).append

end Log

end CheckThenAct

end GgRelay
