import Mathlib.Tactic

/-!
A stamp that grows with every change of a value certifies to a reader that nothing has changed.

* `Certifies stamp changes notes`: whoever noted a stamp and the number of changes up to then has
  noted no more than the present ones, and a smaller stamp where there were changes since;
* `Certifies.note` and `Certifies.advance` are its two steps: a reader takes a note, the stamp
  grows;
* `Certifies.unchanged` is what it is for: the noted stamp is the present one, so nothing changed.
-/

namespace GgRelay

universe u

variable {α : Type u} [Preorder α]

/-- What was noted is in the past, and a change since shows in the stamp. -/
def Certifies (stamp : α) (changes : ℕ) (notes : List (α × ℕ)) : Prop :=
  ∀ p ∈ notes, p.1 ≤ stamp ∧ p.2 ≤ changes ∧ (p.2 < changes → p.1 < stamp)

namespace Certifies

variable {stamp stamp' : α} {changes changes' : ℕ} {notes : List (α × ℕ)}

lemma nil : Certifies stamp changes [] := fun _ h => absurd h List.not_mem_nil

/-- A reader takes a note. -/
lemma note (h : Certifies stamp changes notes) :
    Certifies stamp changes ((stamp, changes) :: notes) := by
  intro p hp
  rcases List.mem_cons.mp hp with rfl | hp
  · exact ⟨le_refl _, le_refl _, fun hlt => absurd hlt (lt_irrefl _)⟩
  · exact h p hp

/-- The stamp grows, whether or not something changes. -/
lemma advance (h : Certifies stamp changes notes) (hs : stamp < stamp')
    (hc : changes ≤ changes') : Certifies stamp' changes' notes := by
  intro p hp
  obtain ⟨hle, hn, -⟩ := h p hp
  have hlt : p.1 < stamp' := hle.trans_lt hs
  exact ⟨hlt.le, hn.trans hc, fun _ => hlt⟩

/-- A note of the present stamp was taken after the last change. -/
lemma unchanged (h : Certifies stamp changes notes) {n : ℕ} (hp : (stamp, n) ∈ notes) :
    n = changes := by
  obtain ⟨-, hn, hlt⟩ := h _ hp
  by_contra hne
  exact lt_irrefl _ (hlt (lt_of_le_of_ne hn hne))

end Certifies

end GgRelay
