import Mathlib.Tactic
import Mathlib.Data.List.Sort

/-!
Pages of a table: the first rows above a cursor, in the order of a key.

* `page` is the page after a cursor, `mem_page` and `page_pairwise` say what is on it;
* `mem_page_or_full`: a row above the cursor is on the page, unless the page is full with rows
  before it;
* `lastKey` is the cursor of a reader who has read these rows, `append_page` and `mem_append_page`
  are a reader's next step.
-/

namespace GgRelay

universe u v

section Cursor

variable {α : Type u} {β : Type v} (key : α → β)

/-- The key of the last row that was read, or the cursor to start with. -/
def lastKey (c : β) (l : List α) : β := (l.getLast?.map key).getD c

variable {key} {c : β} {l : List α} {x : α}

@[simp] lemma lastKey_append_singleton : lastKey key c (l ++ [x]) = key x := by
  simp [lastKey]

lemma lastKey_eq_or_mem (key : α → β) (c : β) (l : List α) :
    lastKey key c l = c ∨ ∃ x ∈ l, lastKey key c l = key x := by
  rcases List.eq_nil_or_concat' l with rfl | ⟨l, x, rfl⟩
  · exact Or.inl rfl
  · exact Or.inr ⟨x, by simp, lastKey_append_singleton⟩

end Cursor

variable {α : Type u} {β : Type v} [LinearOrder β] (key : α → β)

/-- The first `n` rows whose key is above the cursor, in the order of the key. -/
def page (c : β) (n : ℕ) (l : List α) : List α :=
  ((l.filter fun x => c < key x).insertionSort fun x y => key x ≤ key y).take n

variable {key} {c : β} {n : ℕ} {l : List α} {x y : α}

lemma mem_of_mem_page (h : x ∈ page key c n l) : x ∈ l ∧ c < key x := by
  have h := (List.mem_insertionSort _).mp (List.mem_of_mem_take h)
  simpa using List.mem_filter.mp h

private lemma sorted_above (key : α → β) (c : β) (l : List α) :
    ((l.filter fun x => c < key x).insertionSort fun x y => key x ≤ key y).Pairwise
      fun x y => key x ≤ key y := by
  have : Std.Total fun x y : α => key x ≤ key y := ⟨fun x y => le_total _ _⟩
  have : IsTrans α fun x y => key x ≤ key y := ⟨fun _ _ _ => le_trans⟩
  exact List.pairwise_insertionSort _ _

/-- No two rows of a page have the same key. -/
lemma page_pairwise (h : (l.map key).Nodup) :
    (page key c n l).Pairwise fun x y => key x < key y := by
  have hne : (page key c n l).Pairwise fun x y => key x ≠ key y := by
    have hf : (l.filter fun x => c < key x).Pairwise fun x y => key x ≠ key y :=
      (List.pairwise_map.mp h).sublist List.filter_sublist
    exact (hf.perm (List.perm_insertionSort _ _).symm fun h => h.symm).sublist
      (List.take_sublist _ _)
  have hle : (page key c n l).Pairwise fun x y => key x ≤ key y :=
    (sorted_above key c l).sublist (List.take_sublist _ _)
  exact (hle.and hne).imp fun h => lt_of_le_of_ne h.1 h.2

/-- **A row above the cursor is on the page, unless the page is full.** -/
theorem mem_page_or_full (hx : x ∈ l) (hc : c < key x) :
    x ∈ page key c n l ∨ (page key c n l).length = n ∧ ∀ y ∈ page key c n l, key y ≤ key x := by
  have hmem : x ∈ (l.filter fun x => c < key x).insertionSort fun x y => key x ≤ key y :=
    (List.mem_insertionSort _).mpr (List.mem_filter.mpr ⟨hx, by simpa using hc⟩)
  rw [← List.take_append_drop n ((l.filter fun x => c < key x).insertionSort
    fun x y => key x ≤ key y)] at hmem
  rcases List.mem_append.mp hmem with h | h
  · exact Or.inl h
  · refine Or.inr ⟨List.length_take_of_le ?_, fun y hy => ?_⟩
    · by_contra hlt
      rw [List.drop_eq_nil_of_le (le_of_not_ge hlt)] at h
      cases h
    · have hsorted := sorted_above key c l
      rw [← List.take_append_drop n ((l.filter fun x => c < key x).insertionSort
        fun x y => key x ≤ key y)] at hsorted
      exact (List.pairwise_append.mp hsorted).2.2 y hy x h

/-! ### A reader -/

/-- A reader has read nothing above the cursor. -/
lemma le_lastKey (h : l.Pairwise fun x y => key x < key y) (hx : x ∈ l) :
    key x ≤ lastKey key c l := by
  rcases List.eq_nil_or_concat' l with rfl | ⟨l, z, rfl⟩
  · cases hx
  · rw [lastKey_append_singleton]
    rcases List.mem_append.mp hx with hx | hx
    · exact ((List.pairwise_append.mp h).2.2 x hx z (by simp)).le
    · rw [List.mem_singleton.mp hx]

variable {r : List α}

lemma lastKey_append_page : lastKey key c (r ++ page key (lastKey key c r) n l)
    = lastKey key (lastKey key c r) (page key (lastKey key c r) n l) := by
  rcases List.eq_nil_or_concat' (page key (lastKey key c r) n l) with h | ⟨m, z, h⟩
  · rw [h, List.append_nil]
    rfl
  · rw [h, ← List.append_assoc, lastKey_append_singleton, lastKey_append_singleton]

/-- A reader goes on in the order of the key. -/
lemma append_page (hl : (l.map key).Nodup) (hr : r.Pairwise fun x y => key x < key y) :
    (r ++ page key (lastKey key c r) n l).Pairwise fun x y => key x < key y :=
  List.pairwise_append.mpr ⟨hr, page_pairwise hl, fun _ hx _ hy =>
    (le_lastKey hr hx).trans_lt (mem_of_mem_page hy).2⟩

/-- **A reader who has everything up to the cursor has everything up to the next cursor.** -/
theorem mem_append_page (hl : (l.map key).Nodup)
    (hr : ∀ x ∈ l, key x ≤ lastKey key c r → x ∈ r) (hx : x ∈ l)
    (hc : key x ≤ lastKey key c (r ++ page key (lastKey key c r) n l)) :
    x ∈ r ++ page key (lastKey key c r) n l := by
  rcases le_or_gt (key x) (lastKey key c r) with hle | hlt
  · exact List.mem_append_left _ (hr x hx hle)
  · refine List.mem_append_right _ ?_
    rcases mem_page_or_full hx hlt with h | ⟨-, hfull⟩
    · exact h
    · rw [lastKey_append_page] at hc
      rcases lastKey_eq_or_mem key (lastKey key c r)
        (page key (lastKey key c r) n l) with h | ⟨y, hy, h⟩
      · exact absurd (h ▸ hc) (not_le.mpr hlt)
      · have heq : key x = key y := le_antisymm (h ▸ hc) (hfull y hy)
        have hxy : x = y := List.inj_on_of_nodup_map hl hx (mem_of_mem_page hy).1 heq
        exact hxy ▸ hy

end GgRelay
