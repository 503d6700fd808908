import Mathlib.Tactic
import Mathlib.Data.Nat.Count

/-!
Counting the rows of a table indexed by natural numbers: `tally p f n` is the number of rows
below `n` that meet a test.

* `tally_update`: rewriting one row exchanges its old contribution for its new one;
* `tally_update_congr`, `tally_congr`: what the test does not see does not count;
* `tally_succ`, `tally_push`: the table grows by a row;
* `tally_eq_zero`: nothing meets the test.
-/

namespace GgRelay

universe u

variable {α : Type u}

/-- The number of rows of `f` below `n` that meet the test `p`. -/
def tally (p : α → Bool) (f : ℕ → α) (n : ℕ) : ℕ := Nat.count (fun i => p (f i) = true) n

variable (p : α → Bool) (f : ℕ → α)

@[simp] lemma tally_zero : tally p f 0 = 0 := rfl

lemma tally_succ (n : ℕ) : tally p f (n + 1) = tally p f n + (p (f n)).toNat := by
  rw [tally, Nat.count_succ, tally]
  cases p (f n) <;> simp

/-- Tables the test does not tell apart have the same tally. -/
lemma tally_congr {f g : ℕ → α} {n : ℕ} (h : ∀ i, i < n → p (f i) = p (g i)) :
    tally p f n = tally p g n := by
  induction n with
  | zero => rfl
  | succ n ih =>
      rw [tally_succ, tally_succ, ih fun i hi => h i (by omega), h n (by omega)]

/-- Rewriting a row outside the bound is not seen. -/
lemma tally_update_of_le {n i : ℕ} (h : n ≤ i) (a : α) :
    tally p (Function.update f i a) n = tally p f n :=
  tally_congr p fun j hj => by rw [Function.update_of_ne (by omega)]

/-- Rewriting a row below the bound exchanges its old contribution for its new one. -/
theorem tally_update {n i : ℕ} (h : i < n) (a : α) :
    tally p (Function.update f i a) n + (p (f i)).toNat = tally p f n + (p a).toNat := by
  induction n with
  | zero => omega
  | succ n ih =>
      rw [tally_succ, tally_succ]
      by_cases hi : i = n
      · subst hi
        rw [tally_update_of_le p f le_rfl, Function.update_self]
        omega
      · have := ih (by omega)
        rw [Function.update_of_ne (Ne.symm hi)]
        omega

/-- A new row at the end. -/
lemma tally_push (n : ℕ) (a : α) :
    tally p (Function.update f n a) (n + 1) = tally p f n + (p a).toNat := by
  rw [tally_succ, tally_update_of_le p f le_rfl, Function.update_self]

/-- A row rewritten to one that counts the same leaves the tally alone. -/
lemma tally_update_congr {n i : ℕ} {a : α} (h : p a = p (f i)) :
    tally p (Function.update f i a) n = tally p f n :=
  tally_congr p fun j _ => by
    by_cases hj : j = i
    · rw [hj, Function.update_self, h]
    · rw [Function.update_of_ne hj]

lemma tally_eq_zero {n : ℕ} (h : ∀ i, i < n → p (f i) = false) : tally p f n = 0 := by
  induction n with
  | zero => rfl
  | succ n ih =>
      rw [tally_succ, ih fun i hi => h i (by omega), h n (by omega)]
      rfl

end GgRelay
