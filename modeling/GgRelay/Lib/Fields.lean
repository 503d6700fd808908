import Mathlib.Tactic

/-!
Fields joined by separators into one text, without escaping.

* `joinFields` is the text, `Moved` shifts one separator to another of its occurrences;
* `joinFields_eq_iff`: two rows of fields have the same text when the separators of the one can be
  shifted to those of the other.
-/

namespace GgRelay

/-- Fields with separators between them. -/
def joinFields : List String → List String → String
  | _, [] => ""
  | [], f :: _ => f
  | _ :: _, [f] => f
  | sep :: seps, f :: g :: fs => f ++ sep ++ joinFields seps (g :: fs)

/-- A separator is moved forward, to an occurrence of its text in the field before it. -/
inductive Moved : List String → List String → List String → Prop
  | here (sep f w g : String) (seps fs : List String) :
      Moved (sep :: seps) ((f ++ sep ++ w) :: g :: fs) (f :: (w ++ sep ++ g) :: fs)
  | there (sep f : String) {seps fs gs : List String} :
      Moved seps fs gs → Moved (sep :: seps) (f :: fs) (f :: gs)

/-- A separator does not overlap with itself: its first character occurs once. -/
def Separator (sep : String) : Prop := ∃ c cs, sep.toList = c :: cs ∧ c ∉ cs

/-- Where two texts with the same separator agree. -/
lemma append_sep_eq {sep f g x y : String} (hsep : Separator sep)
    (h : f ++ sep ++ x = g ++ sep ++ y) :
    f = g ∧ x = y ∨ (∃ w, f = g ++ sep ++ w ∧ y = w ++ sep ++ x) ∨
      ∃ w, g = f ++ sep ++ w ∧ x = w ++ sep ++ y := by
  obtain ⟨c, cs, hc, hcs⟩ := hsep
  -- one text goes on where the other has its separator
  have key : ∀ {a x y : List Char}, sep.toList ++ x = a ++ (sep.toList ++ y) →
      a = [] ∨ ∃ w, a = sep.toList ++ w ∧ x = w ++ sep.toList ++ y := by
    intro a x y h
    rcases List.append_eq_append_iff.mp h with ⟨b, ha, hx⟩ | ⟨b, hsep, hy⟩
    · exact Or.inr ⟨b, ha, by rw [List.append_assoc]; exact hx⟩
    · cases a with
      | nil => exact Or.inl rfl
      | cons d a =>
          cases b with
          | nil =>
              refine Or.inr ⟨[], ?_, ?_⟩
              · rw [List.append_nil, hsep, List.append_nil]
              · rw [List.nil_append]
                exact hy.symm
          | cons e b =>
              rw [hc] at hsep hy
              have he : e = c := (List.cons.inj hy).1.symm
              have hmem : e ∈ cs := by
                rw [(List.cons.inj hsep).2]
                simp
              exact absurd (he ▸ hmem) hcs
  have hlist := congrArg String.toList h
  simp only [String.toList_append, List.append_assoc] at hlist
  rcases List.append_eq_append_iff.mp hlist with ⟨a, hg, hx⟩ | ⟨a, hf, hy⟩
  · rcases key hx with rfl | ⟨w, rfl, hw⟩
    · refine Or.inl ⟨String.toList_injective ?_, String.toList_injective ?_⟩
      · rw [hg, List.append_nil]
      · exact List.append_cancel_left hx
    · refine Or.inr (Or.inr ⟨String.ofList w, String.toList_injective ?_,
        String.toList_injective ?_⟩)
      · simpa using hg
      · simpa using hw
  · rcases key hy with rfl | ⟨w, rfl, hw⟩
    · refine Or.inl ⟨String.toList_injective ?_, String.toList_injective ?_⟩
      · rw [hf, List.append_nil]
      · exact (List.append_cancel_left hy).symm
    · refine Or.inr (Or.inl ⟨String.ofList w, String.toList_injective ?_,
        String.toList_injective ?_⟩)
      · simpa using hf
      · simpa using hw

/-- What comes before the first field comes before the text. -/
lemma joinFields_cons_append {seps : List String} (p f : String) (fs : List String) :
    joinFields seps ((p ++ f) :: fs) = p ++ joinFields seps (f :: fs) := by
  cases seps with
  | nil => rfl
  | cons sep seps =>
      cases fs with
      | nil => rfl
      | cons g fs => simp only [joinFields, String.append_assoc]

lemma Moved.join_eq {seps fs gs : List String} (h : Moved seps fs gs) :
    joinFields seps fs = joinFields seps gs := by
  induction h with
  | here sep f w g seps fs =>
      simp only [joinFields, joinFields_cons_append, String.append_assoc]
  | @there sep f seps fs gs h ih =>
      cases h with
      | here => exact congrArg (f ++ sep ++ ·) ih
      | there => exact congrArg (f ++ sep ++ ·) ih

lemma join_eq_of_eqvGen {seps fs gs : List String} (h : Relation.EqvGen (Moved seps) fs gs) :
    joinFields seps fs = joinFields seps gs := by
  induction h with
  | rel fs gs h => exact h.join_eq
  | refl fs => rfl
  | symm fs gs _ ih => exact ih.symm
  | trans fs gs hs _ _ ih ih' => exact ih.trans ih'

lemma Moved.there_eqvGen {sep f : String} {seps fs gs : List String}
    (h : Relation.EqvGen (Moved seps) fs gs) :
    Relation.EqvGen (Moved (sep :: seps)) (f :: fs) (f :: gs) := by
  induction h with
  | rel fs gs h => exact .rel _ _ (h.there sep f)
  | refl fs => exact .refl _
  | symm fs gs _ ih => exact ih.symm
  | trans fs gs hs _ _ ih ih' => exact ih.trans _ _ _ ih'

/-- **When two rows of fields have the same text.** -/
theorem joinFields_eq_iff {seps fs gs : List String} (hseps : ∀ sep ∈ seps, Separator sep)
    (hfs : fs.length = seps.length + 1) (hgs : gs.length = seps.length + 1) :
    joinFields seps fs = joinFields seps gs ↔ Relation.EqvGen (Moved seps) fs gs := by
  constructor
  · intro h
    induction seps generalizing fs gs with
    | nil =>
        obtain ⟨f, rfl⟩ := List.length_eq_one_iff.mp hfs
        obtain ⟨g, rfl⟩ := List.length_eq_one_iff.mp hgs
        have hfg : f = g := h
        rw [hfg]
        exact .refl _
    | cons sep seps ih =>
        obtain ⟨hsep, hseps⟩ := List.forall_mem_cons.mp hseps
        match fs, gs, hfs, hgs with
        | f :: f' :: fs, g :: g' :: gs, hfs, hgs =>
            have hf : (f' :: fs).length = seps.length + 1 := by simpa using hfs
            have hg : (g' :: gs).length = seps.length + 1 := by simpa using hgs
            rcases append_sep_eq hsep h with ⟨rfl, htail⟩ | ⟨w, rfl, htail⟩ | ⟨w, rfl, htail⟩
            · exact Moved.there_eqvGen (ih hseps hf hg htail)
            · rw [← joinFields_cons_append] at htail
              refine .trans _ _ _ (.rel _ _ (.here sep g w f' seps fs)) ?_
              exact Moved.there_eqvGen (ih hseps hf hg htail.symm)
            · rw [← joinFields_cons_append] at htail
              refine .trans _ _ _ ?_ (.symm _ _ (.rel _ _ (.here sep f w g' seps gs)))
              exact Moved.there_eqvGen (ih hseps hf hg htail)
  · exact join_eq_of_eqvGen

end GgRelay
