import Mathlib.Tactic

/-!
The items of a dictionary, in the order in which their keys were first assigned.

* `Items.set` is an assignment, `Items.ofPairs` those of a list of pairs in turn;
* `lookup_ofPairs`: the last pair of a key counts;
* `lookup_reverse_iff` finds it as the end of a list, `end_unique` compares two such ends.
-/

namespace GgRelay

namespace Items

variable {α β : Type} [DecidableEq α]

/-- Assign a key: it keeps its place, or comes last. -/
def set (k : α) (v : β) : List (α × β) → List (α × β)
  | [] => [(k, v)]
  | p :: ps => if p.1 = k then (k, v) :: ps else p :: set k v ps

/-- The items after these assignments. -/
def ofPairs (ps : List (α × β)) : List (α × β) := ps.foldl (fun d p => set p.1 p.2 d) []

lemma mem_keys_set {k x : α} {v : β} {d : List (α × β)} :
    x ∈ (set k v d).map Prod.fst ↔ x = k ∨ x ∈ d.map Prod.fst := by
  induction d with
  | nil => simp [set]
  | cons p d ih =>
      rw [set]
      split_ifs with h
      · simp [h]
      · rw [List.map_cons, List.mem_cons, ih, List.map_cons, List.mem_cons]
        tauto

/-- No key occurs twice. -/
lemma nodup_set (k : α) (v : β) {d : List (α × β)} (h : (d.map Prod.fst).Nodup) :
    ((set k v d).map Prod.fst).Nodup := by
  induction d with
  | nil => simp [set]
  | cons p d ih =>
      rw [List.map_cons, List.nodup_cons] at h
      rw [set]
      split_ifs with hp
      · rw [List.map_cons, List.nodup_cons]
        exact ⟨hp ▸ h.1, h.2⟩
      · rw [List.map_cons, List.nodup_cons, mem_keys_set]
        exact ⟨not_or.mpr ⟨hp, h.1⟩, ih h.2⟩

lemma lookup_set (k x : α) (v : β) (d : List (α × β)) :
    (set k v d).lookup x = if x = k then some v else d.lookup x := by
  induction d with
  | nil =>
      rw [set, List.lookup_cons]
      split_ifs with h
      · rw [h, beq_self_eq_true]
      · rw [beq_false_of_ne h]
  | cons p d ih =>
      rw [set]
      by_cases hx : x = k
      · subst hx
        rw [if_pos rfl]
        split_ifs with hp
        · simp
        · rw [List.lookup_cons, beq_false_of_ne (Ne.symm hp), ih, if_pos rfl]
      · rw [if_neg hx]
        split_ifs with hp
        · rw [List.lookup_cons, List.lookup_cons, beq_false_of_ne hx, beq_false_of_ne (hp ▸ hx)]
        · rw [List.lookup_cons, List.lookup_cons, ih, if_neg hx]

lemma ofPairs_concat (ps : List (α × β)) (p : α × β) :
    ofPairs (ps ++ [p]) = set p.1 p.2 (ofPairs ps) := List.foldl_concat _ _ _ _

lemma nodup_ofPairs (ps : List (α × β)) : ((ofPairs ps).map Prod.fst).Nodup := by
  induction ps using List.reverseRecOn with
  | nil => exact List.nodup_nil
  | append_singleton ps p ih =>
      rw [ofPairs_concat]
      exact nodup_set _ _ ih

/-- **The last pair of a key counts.** -/
lemma lookup_ofPairs (ps : List (α × β)) (x : α) :
    (ofPairs ps).lookup x = ps.reverse.lookup x := by
  induction ps using List.reverseRecOn with
  | nil => rfl
  | append_singleton ps p ih =>
      rw [ofPairs_concat, lookup_set, ih, List.reverse_concat, List.lookup_cons]
      split_ifs with h
      · rw [h, beq_self_eq_true]
      · rw [beq_false_of_ne h]

/-- An item is what its key has. -/
lemma mem_iff_lookup {d : List (α × β)} (h : (d.map Prod.fst).Nodup) {k : α} {v : β} :
    (k, v) ∈ d ↔ d.lookup k = some v := by
  induction d with
  | nil => simp
  | cons p d ih =>
      rw [List.map_cons, List.nodup_cons] at h
      rw [List.mem_cons, List.lookup_cons]
      by_cases hk : k = p.1
      · subst hk
        have hnot : (p.1, v) ∉ d := fun hmem => h.1 (List.mem_map.mpr ⟨_, hmem, rfl⟩)
        simp [hnot, Prod.ext_iff, eq_comm]
      · rw [beq_false_of_ne hk, ih h.2]
        exact or_iff_right fun heq => hk (congrArg Prod.fst heq)

end Items

section Last

variable {α β : Type} [DecidableEq α]

lemma not_mem_keys_of_lookup {ps : List (α × β)} {k : α} (h : ps.reverse.lookup k = none) :
    k ∉ ps.map Prod.fst := by
  intro hk
  obtain ⟨p, hp, rfl⟩ := List.mem_map.mp hk
  exact bne_iff_ne.mp (List.lookup_eq_none_iff.mp h p (List.mem_reverse.mpr hp)) rfl

/-- The last pair of a key, as the end of the list that it begins. -/
lemma lookup_reverse_iff {ps : List (α × β)} {k : α} {v : β} :
    ps.reverse.lookup k = some v ↔ ∃ after, (k, v) :: after <:+ ps ∧ k ∉ after.map Prod.fst := by
  induction ps with
  | nil => simp
  | cons p ps ih =>
      obtain ⟨k', v'⟩ := p
      rw [List.reverse_cons, List.lookup_append, Option.or_eq_some_iff, ih]
      constructor
      · rintro (⟨after, hend, hk⟩ | ⟨hnone, hlookup⟩)
        · exact ⟨after, hend.trans (List.suffix_cons _ _), hk⟩
        · obtain ⟨rfl, rfl⟩ : k = k' ∧ v = v' := by
            by_cases hkey : k = k'
            · simpa [hkey, List.lookup_cons, eq_comm] using hlookup
            · simp [List.lookup_cons, beq_false_of_ne hkey] at hlookup
          exact ⟨ps, List.suffix_refl _, not_mem_keys_of_lookup hnone⟩
      · rintro ⟨after, hend, hk⟩
        rcases List.suffix_cons_iff.mp hend with heq | hend
        · obtain ⟨hp, rfl⟩ := List.cons_eq_cons.mp heq
          obtain ⟨rfl, rfl⟩ := Prod.mk.injEq .. ▸ hp
          refine Or.inr ⟨?_, by simp⟩
          rw [List.lookup_eq_none_iff]
          intro p hp
          rw [List.mem_reverse] at hp
          exact bne_iff_ne.mpr fun h => hk (h ▸ List.mem_map_of_mem hp)
        · exact Or.inl ⟨after, hend, hk⟩

/-- Where an element is the last one with its `f` at one place and with its `g` at another, the
places are the same. -/
lemma end_unique {γ δ ε : Type} {xs after after' : List γ} {x : γ} {f : γ → δ} {g : γ → ε}
    (h : x :: after <:+ xs) (h' : x :: after' <:+ xs) (hf : f x ∉ after.map f)
    (hg : g x ∉ after'.map g) : after = after' := by
  rcases List.suffix_or_suffix_of_suffix h h' with hsub | hsub
  · rcases List.suffix_cons_iff.mp hsub with heq | hsub
    · exact List.tail_eq_of_cons_eq heq
    · exact absurd (List.mem_map_of_mem (hsub.subset List.mem_cons_self)) hg
  · rcases List.suffix_cons_iff.mp hsub with heq | hsub
    · exact (List.tail_eq_of_cons_eq heq).symm
    · exact absurd (List.mem_map_of_mem (hsub.subset List.mem_cons_self)) hf

end Last

end GgRelay
