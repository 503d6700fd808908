import Mathlib.Tactic

/-!
Walking through a list by position while somebody removes members of it: what is ahead of a
position before and after the removal.

* `drop_erase_sublist`: nothing new comes up ahead;
* `nodup_insert`: a newcomer at the end of a part;
* `mem_drop_erase`: what disappears from ahead is the removed member itself, or the member that
  was next while the removed one was behind.
-/

namespace GgRelay

universe u

variable {α : Type u}

/-- What is ahead of a position, one by one. -/
lemma getElem?_of_drop_eq_cons {l r : List α} {x : α} {n : ℕ}
    (h : l.drop n = x :: r) : l[n]? = some x ∧ l.drop (n + 1) = r := by
  constructor
  · rw [← Nat.add_zero n, ← List.getElem?_drop, h]
    rfl
  · rw [List.drop_add_one_eq_tail_drop, h, List.tail_cons]

/-- A list with room for one newcomer in its midst. -/
lemma nodup_insert {a c d : List α} {x : α} (hc : c.Sublist [x]) (h : (a ++ d).Nodup)
    (hx : x ∉ a ++ d) : (a ++ c ++ d).Nodup := by
  have hsub : (a ++ c ++ d).Sublist (a ++ [x] ++ d) :=
    ((List.Sublist.refl a).append hc).append (List.Sublist.refl d)
  refine List.Nodup.sublist hsub ?_
  rw [List.append_assoc, List.singleton_append, List.nodup_middle]
  exact List.nodup_cons.mpr ⟨hx, h⟩

variable [DecidableEq α]

lemma drop_erase_sublist (l : List α) (u : α) (n : ℕ) :
    ((l.erase u).drop n).Sublist (l.drop n) := by
  induction l generalizing n with
  | nil => simp
  | cons x l ih =>
      cases n with
      | zero => exact List.erase_sublist
      | succ n =>
          by_cases h : x = u
          · subst h
            rw [List.erase_cons_head, List.drop_succ_cons]
            exact List.drop_sublist_drop_left l (Nat.le_succ n)
          · rw [List.erase_cons_tail (by simpa using h), List.drop_succ_cons,
              List.drop_succ_cons]
            exact ih n

/-- **Who is lost from view when somebody leaves.** -/
theorem mem_drop_erase {l : List α} {u t : α} {n : ℕ} (ht : t ∈ l.drop n) (hne : t ≠ u) :
    t ∈ (l.erase u).drop n ∨ u ∈ l.take n ∧ l[n]? = some t := by
  induction l generalizing n with
  | nil => simp at ht
  | cons x l ih =>
      cases n with
      | zero => exact Or.inl ((List.mem_erase_of_ne hne).mpr ht)
      | succ n =>
          rw [List.drop_succ_cons] at ht
          by_cases h : x = u
          · subst h
            rw [List.erase_cons_head]
            cases hl : l.drop n with
            | nil => simp [hl] at ht
            | cons y r =>
                obtain ⟨hn, hr⟩ := getElem?_of_drop_eq_cons hl
                rw [hl] at ht
                rcases List.mem_cons.mp ht with rfl | ht
                · exact Or.inr ⟨by simp, by simpa using hn⟩
                · exact Or.inl (hr ▸ ht)
          · rw [List.erase_cons_tail (by simpa using h), List.drop_succ_cons]
            rcases ih ht with h' | ⟨hu, hn⟩
            · exact Or.inl h'
            · exact Or.inr ⟨by simp [hu], by simpa using hn⟩

end GgRelay
