import Mathlib.Data.List.Sort
import Mathlib.Tactic

/-!
The first rows of a result that is ordered by a key: rows with one key come in any order.

* `Arranged le rows result`: the result has the rows in an order that `le` admits;
* `mem_take_of_ahead`: a row is among the first ones if few rows can come before it;
* `forall_mem_take_iff`: otherwise there is an order in which it is not.
-/

namespace GgRelay

namespace TopRows

variable {α : Type} (le : α → α → Prop)

/-- The rows in an order that the keys admit: `le a b` if `a` may come before `b`. -/
def Arranged (rows result : List α) : Prop := result.Perm rows ∧ result.Pairwise le

variable [DecidableRel le] [DecidableEq α]

/-- How many rows may come before one. -/
def ahead (rows : List α) (a : α) : ℕ := rows.countP fun b => b ≠ a ∧ le b a

variable {le}

/-- What comes before a row may come before it. -/
lemma length_le_ahead {rows before after : List α} {a : α}
    (h : Arranged le rows (before ++ a :: after)) (hrows : rows.Nodup) :
    before.length ≤ ahead le rows a := by
  obtain ⟨hperm, hordered⟩ := h
  have hnodup : (before ++ a :: after).Nodup := hperm.nodup_iff.mpr hrows
  have hbefore : ∀ b ∈ before, b ≠ a ∧ le b a := by
    intro b hb
    refine ⟨?_, (List.pairwise_append.mp hordered).2.2 b hb a List.mem_cons_self⟩
    rintro rfl
    exact (List.nodup_append.mp hnodup).2.2 b hb b List.mem_cons_self rfl
  calc before.length = before.countP fun b => b ≠ a ∧ le b a :=
        (List.countP_eq_length.mpr fun b hb => by simpa using hbefore b hb).symm
    _ ≤ (before ++ a :: after).countP fun b => b ≠ a ∧ le b a :=
        (List.sublist_append_left _ _).countP_le
    _ = ahead le rows a := hperm.countP_eq _

/-- A row is among the first ones if few can come before it. -/
lemma mem_take_of_ahead {rows result : List α} {a : α} {n : ℕ} (h : Arranged le rows result)
    (hrows : rows.Nodup) (ha : a ∈ rows) (hn : ahead le rows a < n) : a ∈ result.take n := by
  obtain ⟨before, after, rfl⟩ := List.append_of_mem (h.1.mem_iff.mpr ha)
  have hlength := length_le_ahead h hrows
  rw [List.take_append, List.mem_append, List.take_cons (by omega)]
  exact Or.inr List.mem_cons_self

/-- The order in which a row comes as late as it can. -/
def lateness (le : α → α → Prop) (a b c : α) : Prop := le b c ∧ (le c b → b = a → c = a)

section Order

variable [Std.Total le] [IsTrans α le]

instance (a : α) : Std.Total (lateness le a) where
  total b c := by
    rcases Std.Total.total (r := le) b c with hbc | hcb
    · by_cases hb : b = a
      · by_cases hcb : le c b
        · exact Or.inr ⟨hcb, fun _ _ => hb⟩
        · exact Or.inl ⟨hbc, fun h => absurd h hcb⟩
      · exact Or.inl ⟨hbc, fun _ h => absurd h hb⟩
    · by_cases hc : c = a
      · by_cases hbc : le b c
        · exact Or.inl ⟨hbc, fun _ _ => hc⟩
        · exact Or.inr ⟨hcb, fun h => absurd h hbc⟩
      · exact Or.inr ⟨hcb, fun _ h => absurd h hc⟩

instance (a : α) : IsTrans α (lateness le a) where
  trans b c d hbc hcd := by
    refine ⟨IsTrans.trans _ _ _ hbc.1 hcd.1, fun hdb hb => ?_⟩
    have hc : c = a := hbc.2 (IsTrans.trans _ _ _ hcd.1 hdb) hb
    exact hcd.2 (IsTrans.trans _ _ _ hdb hbc.1) hc

/-- **A row is always among the first ones exactly when few rows can come before it.** -/
theorem forall_mem_take_iff {rows : List α} {a : α} {n : ℕ} (hrows : rows.Nodup) (ha : a ∈ rows) :
    (∀ result, Arranged le rows result → a ∈ result.take n) ↔ ahead le rows a < n := by
  refine ⟨fun h => ?_, fun hn result hresult => mem_take_of_ahead hresult hrows ha hn⟩
  classical
  have hsorted := List.pairwise_insertionSort (lateness le a) rows
  have hperm := List.perm_insertionSort (lateness le a) rows
  generalize rows.insertionSort (lateness le a) = result at hsorted hperm
  obtain ⟨before, after, rfl⟩ := List.append_of_mem (hperm.mem_iff.mpr ha)
  have hlate : ∀ b ∈ a :: after, ¬(b ≠ a ∧ le b a) := by
    rintro b hb ⟨hne, hle⟩
    have hmem := (List.mem_cons.mp hb).resolve_left hne
    have hafter := (List.pairwise_append.mp hsorted).2.1
    exact hne (((List.pairwise_cons.mp hafter).1 b hmem).2 hle rfl)
  have hahead : ahead le rows a ≤ before.length := by
    have hnone : (a :: after).countP (fun b => b ≠ a ∧ le b a) = 0 :=
      List.countP_eq_zero.mpr fun b hb => by simpa using hlate b hb
    rw [ahead, ← hperm.countP_eq, List.countP_append, hnone, add_zero]
    exact List.countP_le_length
  have hnot : a ∉ before := fun hmem =>
    (List.nodup_append.mp (hperm.nodup_iff.mpr hrows)).2.2 a hmem a List.mem_cons_self rfl
  have hmem := h _ ⟨hperm, hsorted.imp fun hbc => hbc.1⟩
  by_contra hle
  rw [List.take_append_of_le_length (by omega)] at hmem
  exact hnot (List.mem_of_mem_take hmem)

end Order

end TopRows

end GgRelay
