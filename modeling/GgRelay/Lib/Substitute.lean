import Mathlib.Tactic

/-!
Substituting a mask for what a pattern finds, from left to right, and where the mask goes.

* `sub` is the substitution, `finditer` the matches it replaces;
* a text with masks in it is given by the places that are `covered` and by those at which a mask
  stands: `maskedText`, each character with its place;
* `Selects`: the matches a left-to-right scan picks are the only ones that are disjoint and leave
  nothing to be found;
* `sub_maskedText`: what `sub` does to a text with masks in it.
-/

namespace GgRelay

/-- What a pattern finds at a place: the number of characters of its match, from the character
before and from the text behind; 0 if there is none. -/
abbrev Finder (α : Type) := Option α → List α → ℕ

namespace Substitute

variable {α β : Type} (find : Finder α)

/-- Every match is replaced by the mask.  The first argument is the character before, the second how
many characters of a match are left. -/
def sub (chr : β → α) (mask : List β) : Option α → ℕ → List β → List β
  | _, _, [] => []
  | _, k + 1, c :: cs => sub chr mask (some (chr c)) k cs
  | prev, 0, c :: cs =>
      match find prev ((c :: cs).map chr) with
      | 0 => c :: sub chr mask (some (chr c)) 0 cs
      | k + 1 => mask ++ sub chr mask (some (chr c)) k cs

/-- Where the matches start, and their lengths. -/
def finditer : Option α → ℕ → ℕ → List α → List (ℕ × ℕ)
  | _, _, _, [] => []
  | _, k + 1, p, c :: cs => finditer (some c) k (p + 1) cs
  | prev, 0, p, c :: cs =>
      match find prev (c :: cs) with
      | 0 => finditer (some c) 0 (p + 1) cs
      | k + 1 => (p, k + 1) :: finditer (some c) k (p + 1) cs

variable {find} in
lemma sub_cons_of_not_found {chr : β → α} {mask cs : List β} {prev : Option α} {c : β}
    (h : find prev ((c :: cs).map chr) = 0) :
    sub find chr mask prev 0 (c :: cs) = c :: sub find chr mask (some (chr c)) 0 cs := by
  rw [sub, h]

variable {find} in
lemma sub_cons_of_found {chr : β → α} {mask cs : List β} {prev : Option α} {c : β} {k : ℕ}
    (h : find prev ((c :: cs).map chr) = k + 1) :
    sub find chr mask prev 0 (c :: cs) = mask ++ sub find chr mask (some (chr c)) k cs := by
  rw [sub, h]

/-- Substitution looks at the characters only. -/
lemma map_sub {chr : β → α} {mask : List β} {prev : Option α} {k : ℕ} {cs : List β} :
    (sub find chr mask prev k cs).map chr
      = sub find id (mask.map chr) prev k (cs.map chr) := by
  induction cs generalizing prev k with
  | nil => simp [sub]
  | cons c cs ih =>
      cases k with
      | succ k => simpa [sub] using ih
      | zero =>
          simp only [sub, List.map_cons, List.map_map, id]
          split <;> simp_all

/-! ### Texts with masks in them -/

/-- A character, and its place in the text it comes from. -/
abbrev Placed (α : Type) := α × Option ℕ

/-- The characters of a mask come from nowhere. -/
def placedMask (mask : List α) : List (Placed α) := mask.map fun c => (c, none)

@[simp] lemma placedMask_cons {c : α} {u : List α} :
    placedMask (c :: u) = (c, none) :: placedMask u := rfl

@[simp] lemma placedMask_fst {u : List α} : (placedMask u).map Prod.fst = u := by
  simp [placedMask, Function.comp_def]

/-- The text from a place on, without the places that are covered, and with a mask at those that
begin one. -/
def maskedText (covered begins : ℕ → Bool) (mask : List α) : ℕ → List α → List (Placed α)
  | _, [] => []
  | p, c :: cs =>
      (if covered p then if begins p then placedMask mask else [] else [(c, some p)])
        ++ maskedText covered begins mask (p + 1) cs

/-- The text from a place on, up to the first place that is covered. -/
def uncovered (covered : ℕ → Bool) : ℕ → List α → List α
  | _, [] => []
  | p, c :: cs => if covered p then [] else c :: uncovered covered (p + 1) cs

/-- The character before a place; masks end with `bar`. -/
def before (bar : α) (covered : ℕ → Bool) (text : List α) : ℕ → Option α
  | 0 => none
  | p + 1 => if covered p then some bar else text[p]?

/-- What is found at a place of a text with masks in it. -/
def found (bar : α) (covered : ℕ → Bool) (text : List α) (p : ℕ) : ℕ :=
  find (before bar covered text p) (uncovered covered p (text.drop p))

/-- Masks begin with each run of places that are covered. -/
structure Begins (covered begins : ℕ → Bool) : Prop where
  covered_of_begins : ∀ p, begins p → covered p
  zero : covered 0 → begins 0
  succ : ∀ p, covered (p + 1) → ¬covered p → begins (p + 1)

/-- The finder sees no further than to a `bar`, finds no less in a longer text and the same in a
shorter one that has all of it, and nothing that starts in the mask, which a `bar` begins and
ends. -/
structure Masks (bar : α) (mask : List α) : Prop where
  le_length : ∀ prev cs, find prev cs ≤ cs.length
  mono : ∀ prev u v, u <+: v → find prev u ≤ find prev v
  cut : ∀ prev u v, u <+: v → find prev v ≤ u.length → find prev u = find prev v
  append_bar : ∀ prev u v, find prev (u ++ bar :: v) = find prev u
  inert : ∀ prev u v, u <:+ mask → u ≠ [] → find prev (u ++ v) = 0
  head : mask.head? = some bar
  last : mask.getLast? = some bar

variable {find} {bar : α} {mask : List α} {covered begins : ℕ → Bool} {text : List α}

lemma uncovered_initial (p : ℕ) (cs : List α) : uncovered covered p cs <+: cs := by
  induction cs generalizing p with
  | nil => exact List.prefix_refl _
  | cons c cs ih =>
      rw [uncovered]
      split_ifs
      · exact List.nil_prefix
      · exact List.cons_prefix_cons.mpr ⟨rfl, ih _⟩

/-- Fewer places are uncovered if more are covered. -/
lemma uncovered_anti {covered' : ℕ → Bool} (h : ∀ p, covered p → covered' p) (p : ℕ)
    (cs : List α) : uncovered covered' p cs <+: uncovered covered p cs := by
  induction cs generalizing p with
  | nil => exact List.prefix_refl _
  | cons c cs ih =>
      rw [uncovered, uncovered]
      by_cases hp' : covered' p
      · simp [hp']
      · rw [if_neg hp', if_neg fun hp => hp' (h p hp)]
        exact List.cons_prefix_cons.mpr ⟨rfl, ih _⟩

/-- The text is uncovered as far as nothing in it is covered. -/
lemma le_length_uncovered {p n : ℕ} {cs : List α} (hn : n ≤ cs.length)
    (h : ∀ q, p ≤ q → q < p + n → ¬covered q) : n ≤ (uncovered covered p cs).length := by
  induction cs generalizing p n with
  | nil => simpa [uncovered] using hn
  | cons c cs ih =>
      cases n with
      | zero => exact Nat.zero_le _
      | succ n =>
          rw [uncovered, if_neg (h p le_rfl (by omega)), List.length_cons]
          have := ih (p := p + 1) (n := n) (by simpa using hn) fun q hq hlt =>
            h q (by omega) (by omega)
          omega

lemma not_covered_of_lt {p q : ℕ} {cs : List α} (hq : q < (uncovered covered p cs).length) :
    ¬covered (p + q) := by
  induction cs generalizing p q with
  | nil => simp [uncovered] at hq
  | cons c cs ih =>
      rw [uncovered] at hq
      split_ifs at hq with hp
      · simp at hq
      · cases q with
        | zero => exact hp
        | succ q =>
            have := ih (p := p + 1) (q := q) (by simpa using hq)
            rwa [Nat.add_right_comm] at this

/-- The characters of a text with masks in it: those up to the first mask, and then that mask. -/
lemma maskedText_fst (hb : Begins covered begins) (hhead : mask.head? = some bar) {p : ℕ}
    (hp : covered p → begins p) (cs : List α) :
    (maskedText covered begins mask p cs).map Prod.fst = uncovered covered p cs ∨
      ∃ w, (maskedText covered begins mask p cs).map Prod.fst
        = uncovered covered p cs ++ bar :: w := by
  induction cs generalizing p with
  | nil => exact Or.inl rfl
  | cons c cs ih =>
      rw [maskedText, uncovered]
      by_cases hcovered : covered p
      · obtain ⟨m, rfl⟩ : ∃ m, mask = bar :: m := by
          cases mask <;> simp_all
        exact Or.inr ⟨_, by
          simp only [hcovered, hp hcovered, if_true, placedMask_cons, List.cons_append,
            List.map_cons, List.nil_append]
          rfl⟩
      · simp only [hcovered]
        rcases ih (p := p + 1) (fun h => hb.succ p h hcovered) with h | ⟨w, h⟩
        · exact Or.inl (by simp [h])
        · exact Or.inr ⟨w, by simp [h]⟩

/-- What is found in a text with masks in it is found in front of the next mask. -/
lemma find_maskedText (hfind : Masks find bar mask) (hb : Begins covered begins) {p : ℕ}
    (hp : covered p → begins p) (prev : Option α) (cs : List α) :
    find prev ((maskedText covered begins mask p cs).map Prod.fst)
      = find prev (uncovered covered p cs) := by
  rcases maskedText_fst hb hfind.head hp cs with h | ⟨w, h⟩
  · rw [h]
  · rw [h, hfind.append_bar]

/-- The places that are left are those that are not covered. -/
lemma mem_maskedText {p q : ℕ} {cs : List α} :
    (∃ c, (c, some q) ∈ maskedText covered begins mask p cs) ↔
      p ≤ q ∧ q < p + cs.length ∧ ¬covered q := by
  induction cs generalizing p with
  | nil => simp [maskedText]; omega
  | cons c cs ih =>
      have hhere : (∃ c', (c', some q) ∈
          (if covered p then if begins p then placedMask mask else [] else [(c, some p)])) ↔
            q = p ∧ ¬covered p := by
        split_ifs with hp <;> simp [hp, placedMask]
      simp only [maskedText, List.mem_append, exists_or, hhere, ih, List.length_cons]
      constructor
      · rintro (⟨rfl, hp⟩ | ⟨hpq, hq, hcovered⟩)
        · exact ⟨le_rfl, by omega, hp⟩
        · exact ⟨by omega, by omega, hcovered⟩
      · rintro ⟨hpq, hq, hcovered⟩
        rcases hpq.lt_or_eq with hpq | rfl
        · exact Or.inr ⟨hpq, by omega, hcovered⟩
        · exact Or.inl ⟨rfl, hcovered⟩

lemma maskedText_none (begins : ℕ → Bool) (mask : List α) (p : ℕ) (cs : List α) :
    (maskedText (fun _ => false) begins mask p cs).map Prod.fst = cs := by
  induction cs generalizing p with
  | nil => rfl
  | cons c cs ih => simp [maskedText, ih]

lemma begins_none : Begins (fun _ => false) (fun _ => false) :=
  ⟨fun _ h => h, fun h => h, fun _ h _ => h⟩

/-! ### The matches a scan picks -/

/-- The lengths `size` of the matches that are picked, by their starts: they are matches, disjoint,
and nothing is found at a place they leave. -/
structure Selects (found size : ℕ → ℕ) : Prop where
  eq : ∀ a, 0 < size a → found a = size a
  disjoint : ∀ a b, a < b → 0 < size a → 0 < size b → a + size a ≤ b
  rest : ∀ p, (∀ a ≤ p, a + size a ≤ p) → found p = 0

/-- The place is in a match that is picked. -/
def picked (size : ℕ → ℕ) (q : ℕ) : Bool := (List.range (q + 1)).any fun a => q < a + size a

lemma picked_iff {size : ℕ → ℕ} {q : ℕ} : picked size q ↔ ∃ a ≤ q, q < a + size a := by
  simp [picked]

/-- Masks begin with each run of places that are covered on top. -/
lemma Begins.or_picked (size : ℕ → ℕ) (hb : Begins covered begins) :
    Begins (fun q => covered q || picked size q) (fun q => begins q || 0 < size q) := by
  refine ⟨fun p hp => ?_, fun h0 => ?_, fun p hp hnot => ?_⟩
  · rcases Bool.or_eq_true_iff.mp hp with hp | hp
    · exact Bool.or_eq_true_iff.mpr (Or.inl (hb.covered_of_begins p hp))
    · have hpos : 0 < size p := by simpa using hp
      exact Bool.or_eq_true_iff.mpr (Or.inr (picked_iff.mpr ⟨p, le_rfl, by omega⟩))
  · rcases Bool.or_eq_true_iff.mp h0 with h0 | h0
    · simp [hb.zero h0]
    · obtain ⟨a, ha, hlt⟩ := picked_iff.mp h0
      obtain rfl := Nat.le_zero.mp ha
      simpa using Or.inr hlt
  · have hnot' : ¬covered p ∧ ¬picked size p := by simpa using hnot
    rcases Bool.or_eq_true_iff.mp hp with hp | hp
    · simp [hb.succ p hp hnot'.1]
    · obtain ⟨a, ha, hlt⟩ := picked_iff.mp hp
      rcases ha.lt_or_eq with ha | rfl
      · exact absurd (picked_iff.mpr ⟨a, by omega, by omega⟩) hnot'.2
      · have hpos : 0 < size (p + 1) := by omega
        simp [hpos]

/-- Substitution passes over the mask. -/
lemma sub_placedMask (hfind : Masks find bar mask) {u : List α} (hu : u <:+ mask)
    (prev : Option α) (w : List (Placed α)) :
    sub find Prod.fst (placedMask mask) prev 0 (placedMask u ++ w)
      = placedMask u ++ sub find Prod.fst (placedMask mask) (u.getLast?.or prev) 0 w := by
  induction u generalizing prev with
  | nil => simp [placedMask]
  | cons c u ih =>
      have hzero : find prev ((placedMask (c :: u) ++ w).map Prod.fst) = 0 := by
        rw [List.map_append, placedMask_fst]
        exact hfind.inert prev (c :: u) _ hu (List.cons_ne_nil _ _)
      have hlast : (c :: u).getLast?.or prev = u.getLast?.or (some c) := by
        cases u <;> simp [List.getLast?_cons]
      rw [placedMask_cons, List.cons_append] at hzero ⊢
      rw [sub_cons_of_not_found hzero, ih ((List.suffix_cons c u).trans hu), hlast]
      rfl

section Sub

variable {size : ℕ → ℕ}

/-! One step of the scan over a text with masks in it. -/

lemma drop_succ {c : α} {cs : List α} {p : ℕ} (hcs : text.drop p = c :: cs) :
    text.drop (p + 1) = cs := by
  rw [← List.drop_drop, hcs]
  rfl

lemma before_succ {c : α} {cs : List α} {p : ℕ} (hcs : text.drop p = c :: cs)
    (hp : ¬covered p) : before bar covered text (p + 1) = some c := by
  have := congrArg List.head? hcs
  rw [List.head?_drop] at this
  rw [before, if_neg hp, this]
  rfl

/-- At a place that is covered stands a mask, or nothing. -/
lemma sub_of_covered (hfind : Masks find bar mask) (hb : Begins covered begins) {c : α}
    {cs : List α} {p : ℕ} (hp : covered p) :
    sub find Prod.fst (placedMask mask) (before bar covered text p) 0
        (maskedText covered begins mask p (c :: cs))
      = (if begins p then placedMask mask else []) ++
          sub find Prod.fst (placedMask mask) (before bar covered text (p + 1)) 0
            (maskedText covered begins mask (p + 1) cs) := by
  have hnext : before bar covered text (p + 1) = some bar := by rw [before, if_pos hp]
  rw [maskedText, if_pos hp, hnext]
  split_ifs with hbegins
  · rw [sub_placedMask hfind List.suffix_rfl, hfind.last, Option.some_or]
  · have hprev : before bar covered text p = some bar := by
      cases p with
      | zero => exact absurd (hb.zero hp) hbegins
      | succ p =>
          rw [before, if_pos]
          by_contra hp'
          exact hbegins (hb.succ p hp hp')
    rw [hprev, List.nil_append, List.nil_append]

/-- The finder reads the text up to the next mask. -/
lemma find_at (hfind : Masks find bar mask) (hb : Begins covered begins) {c : α} {cs : List α}
    {p : ℕ} (hcs : text.drop p = c :: cs) (hp : ¬covered p) :
    find (before bar covered text p)
        (((c, some p) :: maskedText covered begins mask (p + 1) cs).map Prod.fst)
      = found find bar covered text p := by
  rw [found, hcs, ← find_maskedText hfind hb (fun hp' => absurd hp' hp), maskedText, if_neg hp]
  rfl

lemma sub_of_not_found_at (hfind : Masks find bar mask) (hb : Begins covered begins) {c : α}
    {cs : List α} {p : ℕ} (hcs : text.drop p = c :: cs) (hp : ¬covered p)
    (h : found find bar covered text p = 0) :
    sub find Prod.fst (placedMask mask) (before bar covered text p) 0
        (maskedText covered begins mask p (c :: cs))
      = (c, some p) :: sub find Prod.fst (placedMask mask) (before bar covered text (p + 1)) 0
          (maskedText covered begins mask (p + 1) cs) := by
  rw [maskedText, if_neg hp, List.singleton_append,
    sub_cons_of_not_found ((find_at hfind hb hcs hp).trans h), before_succ hcs hp]

lemma sub_of_found_at (hfind : Masks find bar mask) (hb : Begins covered begins) {c : α}
    {cs : List α} {p k : ℕ} (hcs : text.drop p = c :: cs) (hp : ¬covered p)
    (h : found find bar covered text p = k + 1) :
    sub find Prod.fst (placedMask mask) (before bar covered text p) 0
        (maskedText covered begins mask p (c :: cs))
      = placedMask mask ++ sub find Prod.fst (placedMask mask) (before bar covered text (p + 1)) k
          (maskedText covered begins mask (p + 1) cs) := by
  rw [maskedText, if_neg hp, List.singleton_append,
    sub_cons_of_found ((find_at hfind hb hcs hp).trans h), before_succ hcs hp]

lemma not_covered_of_selects (hfind : Masks find bar mask)
    (h : Selects (found find bar covered text) size) {a q : ℕ} (haq : a ≤ q)
    (hq : q < a + size a) : ¬covered q := by
  have hsize := h.eq a (by omega)
  have hle := hfind.le_length (before bar covered text a)
    (uncovered covered a (text.drop a))
  rw [found] at hsize
  have hlt : q - a < (uncovered covered a (text.drop a)).length := by omega
  have := not_covered_of_lt hlt
  rwa [Nat.add_sub_cancel' haq] at this

/-- The scan from a place on: `k` characters are left of the match it is in. -/
lemma sub_maskedText_from (hfind : Masks find bar mask) (hb : Begins covered begins)
    (h : Selects (found find bar covered text) size) {cs : List α} {p k : ℕ}
    (hcs : text.drop p = cs) (hle : ∀ a < p, a + size a ≤ p + k)
    (hk : 0 < k → ∃ a < p, a + size a = p + k) :
    sub find Prod.fst (placedMask mask) (before bar covered text p) k
        (maskedText covered begins mask p cs)
      = maskedText (fun q => covered q || picked size q) (fun q => begins q || 0 < size q) mask p
          cs := by
  induction cs generalizing p k with
  | nil => simp [sub, maskedText]
  | cons c cs ih =>
      have hdrop := drop_succ hcs
      -- what is left of the match at the next place
      have hnext : ∀ {k' : ℕ}, p + size p ≤ p + 1 + k' → k ≤ k' + 1 →
          (∀ a < p + 1, a + size a ≤ p + 1 + k') := by
        intro k' hp hk' a ha
        rcases Nat.lt_succ_iff_lt_or_eq.mp ha with ha | rfl
        · have := hle a ha
          omega
        · exact hp
      cases k with
      -- the place is within a match that is picked
      | succ k =>
          obtain ⟨a, hap, hend⟩ := hk (Nat.succ_pos k)
          have hp : ¬covered p := not_covered_of_selects hfind h hap.le (by omega)
          have hsize : size p = 0 := by
            by_contra hpos
            have := h.disjoint a p hap (by omega) (by omega)
            omega
          have hpicked : picked size p := picked_iff.mpr ⟨a, hap.le, by omega⟩
          have hbegins : ¬begins p := fun hp' => hp (hb.covered_of_begins p hp')
          have hrest := ih (k := k) hdrop (hnext (by omega) le_rfl)
            fun _ => ⟨a, by omega, by omega⟩
          rw [before_succ hcs hp] at hrest
          simpa [maskedText, hp, hpicked, hbegins, hsize, sub] using hrest
      | zero =>
          by_cases hp : covered p
          · have hsize : size p = 0 := by
              by_contra hpos
              exact not_covered_of_selects hfind h (le_refl p) (by omega) hp
            rw [sub_of_covered hfind hb hp,
              ih (k := 0) hdrop (hnext (by omega) (by omega)) fun h0 => absurd h0 (lt_irrefl 0)]
            simp [maskedText, hp, hsize]
          · rcases Nat.eq_zero_or_pos (size p) with hsize | hsize
            -- nothing is found
            · have hnone : ∀ a ≤ p, a + size a ≤ p := by
                intro a hap
                rcases hap.lt_or_eq with hap | rfl
                · exact hle a hap
                · omega
              have hpicked : ¬picked size p := by
                intro hpicked
                obtain ⟨a, hap, hlt⟩ := picked_iff.mp hpicked
                exact absurd (hnone a hap) (by omega)
              rw [sub_of_not_found_at hfind hb hcs hp (h.rest p hnone),
                ih (k := 0) hdrop (hnext (by omega) (by omega)) fun h0 => absurd h0 (lt_irrefl 0)]
              simp [maskedText, hp, hpicked]
            -- a match is picked
            · obtain ⟨k, hk⟩ := Nat.exists_eq_succ_of_ne_zero hsize.ne'
              have hpicked : picked size p := picked_iff.mpr ⟨p, le_rfl, by omega⟩
              rw [sub_of_found_at (k := k) hfind hb hcs hp (by rw [h.eq p hsize, hk]),
                ih (k := k) hdrop (hnext (by omega) (by omega)) fun _ => ⟨p, by omega, by omega⟩]
              simp [maskedText, hpicked, hsize]

/-- `sub` puts masks in the places of the matches that are picked. -/
theorem sub_maskedText (hfind : Masks find bar mask) (hb : Begins covered begins)
    (h : Selects (found find bar covered text) size) :
    sub find Prod.fst (placedMask mask) none 0 (maskedText covered begins mask 0 text)
      = maskedText (fun q => covered q || picked size q) (fun q => begins q || 0 < size q) mask 0
          text :=
  sub_maskedText_from hfind hb h (p := 0) rfl (fun a ha => absurd ha a.not_lt_zero)
    fun h0 => absurd h0 (lt_irrefl 0)

end Sub

/-! ### The matches of the original text -/

section Finditer

variable (find)

lemma uncovered_none (p : ℕ) (cs : List α) : uncovered (fun _ => false) p cs = cs := by
  induction cs generalizing p with
  | nil => rfl
  | cons c cs ih => rw [uncovered, ih]; rfl

/-- The scan from a place on: its matches start behind the one it is in, are disjoint, and leave
nothing to be found. -/
lemma finditer_from (hfind : ∀ prev cs, find prev cs ≤ cs.length) (bar : α) (text : List α)
    {cs : List α} (p k : ℕ) (hcs : text.drop p = cs) :
    (∀ m ∈ finditer find (before bar (fun _ => false) text p) k p cs,
        p + k ≤ m.1 ∧ 0 < m.2 ∧ found find bar (fun _ => false) text m.1 = m.2) ∧
      (finditer find (before bar (fun _ => false) text p) k p cs).Pairwise
        (fun m m' => m.1 + m.2 ≤ m'.1) ∧
      ∀ q, p + k ≤ q → found find bar (fun _ => false) text q = 0 ∨
        ∃ m ∈ finditer find (before bar (fun _ => false) text p) k p cs,
          m.1 ≤ q ∧ q < m.1 + m.2 := by
  induction cs generalizing p k with
  | nil =>
      refine ⟨by simp [finditer], by simp [finditer], fun q hq => Or.inl ?_⟩
      have hdrop : text.drop q = [] := by
        rw [List.drop_eq_nil_iff] at hcs ⊢
        omega
      rw [found, hdrop]
      exact Nat.le_zero.mp (hfind _ [])
  | cons c cs ih =>
      have hdrop := drop_succ hcs
      have hbefore : some c = before bar (fun _ => false) text (p + 1) :=
        (before_succ hcs (by simp)).symm
      have hfound : find (before bar (fun _ => false) text p) (c :: cs)
          = found find bar (fun _ => false) text p := by rw [found, uncovered_none, hcs]
      cases k with
      | succ k =>
          rw [finditer, hbefore]
          have hk : p + 1 + k = p + (k + 1) := by omega
          simpa only [hk] using ih (p + 1) k hdrop
      | zero =>
          obtain ⟨n, hn⟩ : ∃ n, find (before bar (fun _ => false) text p) (c :: cs) = n := ⟨_, rfl⟩
          cases n with
          | zero =>
              obtain ⟨hmem, hpair, hrest⟩ := ih (p + 1) 0 hdrop
              rw [finditer, hn, hbefore]
              refine ⟨fun m hm => ?_, hpair, fun q hq => ?_⟩
              · obtain ⟨hle, hm⟩ := hmem m hm
                exact ⟨by omega, hm⟩
              · rcases (show p ≤ q from hq).lt_or_eq with hq | rfl
                · exact hrest q hq
                · exact Or.inl (hfound.symm.trans hn)
          | succ n =>
              obtain ⟨hmem, hpair, hrest⟩ := ih (p + 1) n hdrop
              rw [finditer, hn, hbefore]
              refine ⟨fun m hm => ?_, List.pairwise_cons.mpr ⟨fun m hm => ?_, hpair⟩,
                fun q hq => ?_⟩
              · rcases List.mem_cons.mp hm with rfl | hm
                · exact ⟨le_rfl, Nat.succ_pos n, hfound.symm.trans hn⟩
                · obtain ⟨hle, hm⟩ := hmem m hm
                  exact ⟨by omega, hm⟩
              · have := (hmem m hm).1
                show p + (n + 1) ≤ m.1
                omega
              · by_cases hend : p + (n + 1) ≤ q
                · refine (hrest q (by omega)).imp_right fun ⟨m, hm, hq⟩ => ?_
                  exact ⟨m, List.mem_cons_of_mem _ hm, hq⟩
                · exact Or.inr ⟨(p, n + 1), List.mem_cons_self, hq, by omega⟩

end Finditer

/-- What is left of the match of the original text that starts at a place, once places are covered;
0 if it is no match any more. -/
def standing (find : Finder α) (bar : α) (covered : ℕ → Bool) (text : List α) (a : ℕ) : ℕ :=
  if (finditer find none 0 0 text).any fun m => m.1 = a then found find bar covered text a else 0

/-- The places that are covered once those in the standing matches are. -/
def coverNext (find : Finder α) (bar : α) (text : List α) (covered : ℕ → Bool) (q : ℕ) : Bool :=
  covered q || picked (standing find bar covered text) q

/-- The places in the standing matches of several patterns, each of which finds those of the
patterns before it covered. -/
def cover (bar : α) (text : List α) : List (Finder α) → (ℕ → Bool) → ℕ → Bool
  | [], covered => covered
  | find :: finds, covered => cover bar text finds (coverNext find bar text covered)

/-- No pattern finds anything outside the standing matches: what the patterns before it leave of a
match has no other match in it. -/
def Quiet (bar : α) (text : List α) : List (Finder α) → (ℕ → Bool) → Prop
  | [], _ => True
  | find :: finds, covered =>
      (∀ p < text.length, ¬coverNext find bar text covered p → found find bar covered text p = 0) ∧
        Quiet bar text finds (coverNext find bar text covered)

instance Quiet.decidable (bar : α) (text : List α) :
    ∀ (finds : List (Finder α)) (covered : ℕ → Bool), Decidable (Quiet bar text finds covered)
  | [], _ => inferInstanceAs (Decidable True)
  | find :: finds, covered =>
      have := Quiet.decidable bar text finds (coverNext find bar text covered)
      inferInstanceAs (Decidable (_ ∧ _))

/-- The finder does not look at the character before. -/
def Blind (find : Finder α) : Prop := ∀ prev prev' cs, find prev cs = find prev' cs

section Cover

lemma found_of_covered (hfind : Masks find bar mask) {p : ℕ} (hp : covered p) :
    found find bar covered text p = 0 := by
  have hnil : uncovered covered p (text.drop p) = [] := by
    cases text.drop p with
    | nil => rfl
    | cons c cs => rw [uncovered, if_pos hp]
  rw [found, hnil]
  exact Nat.le_zero.mp (hfind.le_length _ [])

lemma found_of_length_le (hfind : Masks find bar mask) {p : ℕ} (hp : text.length ≤ p) :
    found find bar covered text p = 0 := by
  rw [found, List.drop_eq_nil_iff.mpr hp]
  exact Nat.le_zero.mp (hfind.le_length _ [])

/-- Less is found if more is covered. -/
lemma found_anti (hfind : Masks find bar mask) {covered' : ℕ → Bool}
    (h : ∀ q, covered q → covered' q) (p : ℕ)
    (hprev : Blind find ∨ before bar covered' text p = before bar covered text p) :
    found find bar covered' text p ≤ found find bar covered text p := by
  have hle := hfind.mono (before bar covered' text p) _ _
    (uncovered_anti h p (text.drop p))
  rcases hprev with hblind | hprev
  · rwa [hblind _ (before bar covered text p) (uncovered covered p _)] at hle
  · rwa [found, found, ← hprev]

/-- Nothing else is found where nothing of a match is covered. -/
lemma found_of_apart (hfind : Masks find bar mask) (hprev : Blind find ∨ ∀ p, ¬covered p) {p : ℕ}
    (h : ∀ q, p ≤ q → q < p + found find bar (fun _ => false) text p → ¬covered q) :
    found find bar covered text p = found find bar (fun _ => false) text p := by
  rcases hprev with hblind | hnone
  swap
  · obtain rfl : covered = fun _ => false := funext fun p => by simpa using hnone p
    rfl
  have horiginal : found find bar (fun _ => false) text p
      = find (before bar covered text p) (text.drop p) := by
    rw [found, uncovered_none, hblind _ (before bar covered text p)]
  have hle : found find bar (fun _ => false) text p ≤ (text.drop p).length := by
    rw [horiginal]
    exact hfind.le_length _ _
  rw [horiginal] at h hle ⊢
  exact hfind.cut _ _ _ (uncovered_initial p _) (le_length_uncovered hle h)

/-- Disjoint matches that are listed by their starts. -/
lemma add_le_of_pairwise {ms : List (ℕ × ℕ)} (h : ms.Pairwise fun m m' => m.1 + m.2 ≤ m'.1)
    {a b n k : ℕ} (ha : (a, n) ∈ ms) (hb : (b, k) ∈ ms) (hab : a < b) (hk : 0 < k) :
    a + n ≤ b := by
  induction ms with
  | nil => simp at ha
  | cons m ms ih =>
      obtain ⟨hm, hms⟩ := List.pairwise_cons.mp h
      rcases List.mem_cons.mp ha with heq | ha'
      · subst heq
        rcases List.mem_cons.mp hb with hb' | hb'
        · exact absurd (Prod.ext_iff.mp hb').1 hab.ne'
        · exact hm _ hb'
      · rcases List.mem_cons.mp hb with heq | hb'
        · subst heq
          have := hm _ ha'
          simp only at this
          omega
        · exact ih hms ha' hb'

/-- The standing matches are the ones a scan picks. -/
lemma selects_standing (hfind : Masks find bar mask)
    (hprev : Blind find ∨ ∀ p, ¬covered p)
    (hquiet : ∀ p < text.length, ¬coverNext find bar text covered p →
      found find bar covered text p = 0) :
    Selects (found find bar covered text) (standing find bar covered text) := by
  obtain ⟨hmem, hpair, -⟩ := finditer_from find hfind.le_length bar text 0 0 rfl
  have hstart : ∀ {a}, 0 < standing find bar covered text a →
      (∃ n, (a, n) ∈ finditer find none 0 0 text) ∧
        standing find bar covered text a = found find bar covered text a := by
    intro a ha
    rw [standing] at ha ⊢
    split_ifs at ha ⊢ with hany
    · obtain ⟨⟨b, n⟩, hm, hb⟩ := List.any_eq_true.mp hany
      obtain rfl : b = a := by simpa using hb
      exact ⟨⟨n, hm⟩, rfl⟩
    · exact absurd ha (lt_irrefl 0)
  have hle : ∀ p, found find bar covered text p ≤ found find bar (fun _ => false) text p := by
    intro p
    refine found_anti hfind (fun _ h => by simp at h) p (hprev.imp_right fun hnone => ?_)
    cases p with
    | zero => rfl
    | succ p => simp [before, hnone p]
  refine ⟨fun a ha => (hstart ha).2.symm, fun a b hab ha hb => ?_, fun p hp => ?_⟩
  · obtain ⟨⟨n, ha⟩, hsize⟩ := hstart ha
    obtain ⟨⟨m, hb⟩, -⟩ := hstart hb
    have hlength := hle a
    rw [(hmem _ ha).2.2] at hlength
    have hend := add_le_of_pairwise hpair ha hb hab (hmem _ hb).2.1
    omega
  · by_cases hlength : p < text.length
    · by_cases hcovered : covered p
      · exact found_of_covered hfind hcovered
      · refine hquiet p hlength fun hnext => ?_
        rcases Bool.or_eq_true_iff.mp hnext with h | h
        · exact hcovered h
        · obtain ⟨a, hap, hlt⟩ := picked_iff.mp h
          exact absurd (hp a hap) (by omega)
    · exact found_of_length_le hfind (by omega)

/-- Where something is found in the original text is a match of it. -/
lemma coverNext_of_found (hfind : Masks find bar mask) {p : ℕ}
    (hp : found find bar (fun _ => false) text p ≠ 0) :
    coverNext find bar text (fun _ => false) p := by
  obtain ⟨hmem, -, hrest⟩ := finditer_from find hfind.le_length bar text 0 0 rfl
  obtain ⟨⟨a, n⟩, hm, hle, hlt⟩ := (hrest p (by omega)).resolve_left hp
  have hany : (finditer find none 0 0 text).any fun m => m.1 = a :=
    List.any_eq_true.mpr ⟨(a, n), hm, by simp⟩
  have hstanding : standing find bar (fun _ => false) text a = n := by
    rw [standing, if_pos hany]
    exact (hmem _ hm).2.2
  have hpicked : picked (standing find bar (fun _ => false) text) p :=
    picked_iff.mpr ⟨a, hle, by rwa [hstanding]⟩
  simp [coverNext, hpicked]

/-- Masks begin with each run of places that the standing matches cover. -/
lemma Begins.next (hb : Begins covered begins) :
    Begins (coverNext find bar text covered)
      (fun q => begins q || 0 < standing find bar covered text q) :=
  hb.or_picked _

/-- One pattern puts its mask over its standing matches. -/
lemma sub_standing (hfind : Masks find bar mask) (hb : Begins covered begins)
    (hprev : Blind find ∨ ∀ p, ¬covered p)
    (hquiet : ∀ p < text.length, ¬coverNext find bar text covered p →
      found find bar covered text p = 0) :
    sub find Prod.fst (placedMask mask) none 0 (maskedText covered begins mask 0 text)
      = maskedText (coverNext find bar text covered)
          (fun q => begins q || 0 < standing find bar covered text q) mask 0 text :=
  sub_maskedText hfind hb (selects_standing hfind hprev hquiet)

/-- If no pattern finds anything outside the standing matches, the patterns in turn mask the places
of the standing matches and no others. -/
theorem foldl_sub_standing {finds : List (Finder α)} (hfinds : ∀ find ∈ finds, Masks find bar mask)
    (hblind : ∀ find ∈ finds, Blind find) (hb : Begins covered begins)
    (hquiet : Quiet bar text finds covered) :
    ∃ begins', Begins (cover bar text finds covered) begins' ∧
      finds.foldl (fun t find => sub find Prod.fst (placedMask mask) none 0 t)
          (maskedText covered begins mask 0 text)
        = maskedText (cover bar text finds covered) begins' mask 0 text := by
  induction finds generalizing covered begins with
  | nil => exact ⟨begins, hb, rfl⟩
  | cons find finds ih =>
      have hfind := hfinds find List.mem_cons_self
      have hprev : Blind find ∨ ∀ p, ¬covered p := Or.inl (hblind find List.mem_cons_self)
      rw [List.foldl_cons, sub_standing hfind hb hprev hquiet.1]
      exact ih (fun f hf => hfinds f (List.mem_cons_of_mem _ hf))
        (fun f hf => hblind f (List.mem_cons_of_mem _ hf)) hb.next hquiet.2

/-- The place is in a match of the original text. -/
def Matched (find : Finder α) (text : List α) (q : ℕ) : Prop :=
  ∃ m ∈ finditer find none 0 0 text, m.1 ≤ q ∧ q < m.1 + m.2

/-- A pattern none of whose matches is touched covers its matches, and finds nothing else. -/
lemma coverNext_of_apart (hfind : Masks find bar mask) (hprev : Blind find ∨ ∀ p, ¬covered p)
    (h : ∀ q, Matched find text q → ¬covered q) :
    (∀ q, coverNext find bar text covered q ↔ covered q ∨ Matched find text q) ∧
      ∀ p, ¬coverNext find bar text covered p → found find bar covered text p = 0 := by
  obtain ⟨hmem, -, hrest⟩ := finditer_from find hfind.le_length bar text 0 0 rfl
  have hsame : ∀ m ∈ finditer find none 0 0 text, found find bar covered text m.1 = m.2 := by
    intro m hm
    have hlength := (hmem m hm).2.2
    rw [← hlength]
    exact found_of_apart hfind hprev fun q hle hlt => h q ⟨m, hm, hle, by rwa [← hlength]⟩
  have hpicked : ∀ q, picked (standing find bar covered text) q ↔ Matched find text q := by
    intro q
    rw [picked_iff]
    constructor
    · rintro ⟨a, hle, hlt⟩
      rw [standing] at hlt
      split_ifs at hlt with hany
      · obtain ⟨⟨b, n⟩, hm, hb⟩ := List.any_eq_true.mp hany
        obtain rfl : b = a := by simpa using hb
        exact ⟨(b, n), hm, hle, by rwa [hsame _ hm] at hlt⟩
      · omega
    · rintro ⟨⟨a, n⟩, hm, hle, hlt⟩
      have hany : (finditer find none 0 0 text).any fun m => m.1 = a :=
        List.any_eq_true.mpr ⟨(a, n), hm, by simp⟩
      exact ⟨a, hle, by rwa [standing, if_pos hany, hsame _ hm]⟩
  have hnext : ∀ q, coverNext find bar text covered q ↔ covered q ∨ Matched find text q := by
    intro q
    rw [coverNext, Bool.or_eq_true_iff, hpicked]
  refine ⟨hnext, fun p hp => ?_⟩
  have hnot : ¬Matched find text p := fun hm => hp ((hnext p).mpr (Or.inr hm))
  have hzero : found find bar (fun _ => false) text p = 0 :=
    (hrest p (by omega)).resolve_right hnot
  rw [found_of_apart hfind hprev fun q hle hlt => by omega, hzero]

/-- Patterns whose matches do not overlap cover their matches, and find nothing else. -/
theorem quiet_of_apart {finds : List (Finder α)} (hfinds : ∀ find ∈ finds, Masks find bar mask)
    (hblind : ∀ find ∈ finds, Blind find)
    (hfirst : ∀ find ∈ finds, ∀ q, Matched find text q → ¬covered q)
    (h : finds.Pairwise fun f g => ∀ q, ¬(Matched f text q ∧ Matched g text q)) :
    Quiet bar text finds covered ∧
      ∀ q, cover bar text finds covered q ↔ covered q ∨ ∃ find ∈ finds, Matched find text q := by
  induction finds generalizing covered with
  | nil => exact ⟨trivial, by simp [cover]⟩
  | cons find finds ih =>
      obtain ⟨hpair, hrest⟩ := List.pairwise_cons.mp h
      obtain ⟨hnext, hzero⟩ := coverNext_of_apart (hfinds find List.mem_cons_self)
        (Or.inl (hblind find List.mem_cons_self)) (hfirst find List.mem_cons_self)
      obtain ⟨hquiet, hcover⟩ := ih
        (fun f hf => hfinds f (List.mem_cons_of_mem _ hf))
        (fun f hf => hblind f (List.mem_cons_of_mem _ hf))
        (fun f hf q hq hcovered => ((hnext q).mp hcovered).elim
          (hfirst f (List.mem_cons_of_mem _ hf) q hq) fun hm => hpair f hf q ⟨hm, hq⟩) hrest
      refine ⟨⟨fun p _ => hzero p, hquiet⟩, fun q => ?_⟩
      rw [cover, hcover, hnext, List.exists_mem_cons_iff, or_assoc]

/-- What the later patterns cover comes on top. -/
lemma cover_of_covered (finds : List (Finder α)) {p : ℕ} (hp : covered p) :
    cover bar text finds covered p := by
  induction finds generalizing covered with
  | nil => exact hp
  | cons find finds ih => exact ih (Bool.or_eq_true_iff.mpr (Or.inl hp))

/-- No pattern that does not look back finds anything in what is left in the end. -/
lemma found_cover {finds : List (Finder α)} (hfinds : ∀ find ∈ finds, Masks find bar mask)
    (hblind : ∀ find ∈ finds, Blind find) (hquiet : Quiet bar text finds covered)
    {find : Finder α} (hmem : find ∈ finds) (p : ℕ) :
    found find bar (cover bar text finds covered) text p = 0 := by
  induction finds generalizing covered with
  | nil => simp at hmem
  | cons f finds ih =>
      rcases List.mem_cons.mp hmem with rfl | hmem
      · have hfind := hfinds find List.mem_cons_self
        by_cases hp : cover bar text (find :: finds) covered p
        · exact found_of_covered hfind hp
        by_cases hlength : p < text.length
        · have hnext : ¬coverNext find bar text covered p := fun h =>
            hp (cover_of_covered finds h)
          have hle : found find bar (cover bar text (find :: finds) covered) text p
              ≤ found find bar covered text p :=
            found_anti hfind (fun q hq => cover_of_covered _ hq) p
              (Or.inl (hblind find List.mem_cons_self))
          have := hquiet.1 p hlength hnext
          omega
        · exact found_of_length_le hfind (by omega)
      · exact ih (fun f hf => hfinds f (List.mem_cons_of_mem _ hf))
          (fun f hf => hblind f (List.mem_cons_of_mem _ hf)) hquiet.2 hmem

end Cover

/-! ### A second run -/

section Again

/-- A pattern that finds nothing changes nothing. -/
lemma sub_of_not_found (hfind : Masks find bar mask) (hb : Begins covered begins)
    (h : ∀ p, found find bar covered text p = 0) :
    sub find Prod.fst (placedMask mask) none 0 (maskedText covered begins mask 0 text)
      = maskedText covered begins mask 0 text := by
  have hselects : Selects (found find bar covered text) (fun _ => 0) :=
    ⟨fun _ ha => absurd ha (lt_irrefl 0), fun _ _ _ ha => absurd ha (lt_irrefl 0),
      fun p _ => h p⟩
  have hpicked : ∀ q, picked (fun _ => 0) q = false := fun q => by simp [picked]
  simpa [hpicked] using sub_maskedText hfind hb hselects

lemma bar_not_mem_take [DecidableEq α] (hfind : Masks find bar mask) (prev : Option α)
    (cs : List α) : bar ∉ cs.take (find prev cs) := by
  by_cases hbar : bar ∈ cs
  · obtain ⟨u, v, rfl, hu⟩ := List.eq_append_cons_of_mem hbar
    have hle := hfind.le_length prev u
    rw [hfind.append_bar, List.take_append_of_le_length hle]
    exact fun h => hu (List.mem_of_mem_take h)
  · exact fun h => hbar (List.mem_of_mem_take h)

/-- Substitution never takes a `bar` away. -/
lemma count_le_count_sub [DecidableEq α] (hfind : Masks find bar mask) {cs : List (Placed α)}
    (prev : Option α) {k : ℕ} (hk : bar ∉ (cs.map Prod.fst).take k) :
    (cs.map Prod.fst).count bar
      ≤ ((sub find Prod.fst (placedMask mask) prev k cs).map Prod.fst).count bar := by
  induction cs generalizing prev k with
  | nil => simp
  | cons c cs ih =>
      cases k with
      | succ k =>
          rw [List.map_cons, List.take_succ_cons, List.mem_cons, not_or] at hk
          rw [sub, List.map_cons, List.count_cons_of_ne (Ne.symm hk.1)]
          exact ih _ hk.2
      | zero =>
          have hclear := bar_not_mem_take hfind prev ((c :: cs).map Prod.fst)
          obtain ⟨n, hn⟩ : ∃ n, find prev ((c :: cs).map Prod.fst) = n := ⟨_, rfl⟩
          cases n with
          | zero =>
              rw [sub_cons_of_not_found hn, List.map_cons, List.map_cons, List.count_cons,
                List.count_cons]
              exact Nat.add_le_add_right (ih _ (by simp)) _
          | succ n =>
              rw [hn, List.map_cons, List.take_succ_cons, List.mem_cons, not_or] at hclear
              rw [sub_cons_of_found hn, List.map_cons, List.map_append,
                List.count_cons_of_ne (Ne.symm hclear.1), List.count_append]
              exact (ih _ hclear.2).trans (Nat.le_add_left _ _)

/-- A pattern that finds something puts a `bar` more into the text. -/
lemma lt_count_sub [DecidableEq α] (hfind : Masks find bar mask) (hb : Begins covered begins)
    {cs : List α} {p q : ℕ} (hcs : text.drop p = cs) (hpq : p ≤ q)
    (hq : 0 < found find bar covered text q) :
    ((maskedText covered begins mask p cs).map Prod.fst).count bar
      < ((sub find Prod.fst (placedMask mask) (before bar covered text p) 0
          (maskedText covered begins mask p cs)).map Prod.fst).count bar := by
  induction cs generalizing p with
  | nil =>
      have hzero : found find bar covered text q = 0 :=
        found_of_length_le hfind ((List.drop_eq_nil_iff.mp hcs).trans hpq)
      omega
  | cons c cs ih =>
      have hnext : found find bar covered text p = 0 → p + 1 ≤ q := by
        intro hp
        rcases hpq.lt_or_eq with hpq | rfl
        · exact hpq
        · omega
      by_cases hp : covered p
      · have hrest := ih (drop_succ hcs) (hnext (found_of_covered hfind hp))
        rw [sub_of_covered hfind hb hp, maskedText, if_pos hp, List.map_append, List.map_append,
          List.count_append, List.count_append]
        omega
      · obtain ⟨n, hn⟩ : ∃ n, found find bar covered text p = n := ⟨_, rfl⟩
        cases n with
        | zero =>
            have hrest := ih (drop_succ hcs) (hnext hn)
            rw [sub_of_not_found_at hfind hb hcs hp hn, maskedText, if_neg hp,
              List.singleton_append, List.map_cons, List.map_cons, List.count_cons,
              List.count_cons]
            omega
        | succ n =>
            have hclear := bar_not_mem_take hfind (before bar covered text p)
              (((c, some p) :: maskedText covered begins mask (p + 1) cs).map Prod.fst)
            rw [find_at hfind hb hcs hp, hn, List.map_cons, List.take_succ_cons, List.mem_cons,
              not_or] at hclear
            have hrest := count_le_count_sub hfind (before bar covered text (p + 1)) hclear.2
            have hmask : 0 < mask.count bar := by
              refine List.count_pos_iff.mpr (List.mem_of_mem_head? ?_)
              exact hfind.head
            rw [sub_of_found_at hfind hb hcs hp hn, maskedText, if_neg hp, List.singleton_append,
              List.map_cons, List.count_cons_of_ne (Ne.symm hclear.1), List.map_append,
              placedMask_fst, List.count_append]
            omega

/-- In a text that substitution does not change nothing is found. -/
lemma finditer_eq_nil [DecidableEq α] (hfind : Masks find bar mask)
    (h : sub find id mask none 0 text = text) : finditer find none 0 0 text = [] := by
  obtain ⟨hmem, -, -⟩ := finditer_from find hfind.le_length bar text 0 0 rfl
  refine List.eq_nil_iff_forall_not_mem.mpr fun m hm => ?_
  obtain ⟨-, hpos, hfound⟩ := hmem m hm
  have hlt := lt_count_sub hfind begins_none (List.drop_zero (l := text)) (Nat.zero_le m.1)
    (hpos.trans_eq hfound.symm)
  have hsame : (sub find Prod.fst (placedMask mask) none 0
      (maskedText (fun _ => false) (fun _ => false) mask 0 text)).map Prod.fst = text := by
    rw [map_sub, placedMask_fst, maskedText_none, h]
  rw [maskedText_none] at hlt
  exact absurd (hlt.trans_eq (congrArg (List.count bar) hsame)) (lt_irrefl _)

/-- The patterns in turn. -/
lemma map_foldl_sub (finds : List (Finder α)) (t : List (Placed α)) :
    (finds.foldl (fun t find => sub find Prod.fst (placedMask mask) none 0 t) t).map Prod.fst
      = finds.foldl (fun t find => sub find id mask none 0 t) (t.map Prod.fst) := by
  induction finds generalizing t with
  | nil => rfl
  | cons find finds ih => rw [List.foldl_cons, List.foldl_cons, ih, map_sub, placedMask_fst]

lemma count_le_count_foldl [DecidableEq α] {finds : List (Finder α)}
    (hfinds : ∀ find ∈ finds, Masks find bar mask) (t : List (Placed α)) :
    (t.map Prod.fst).count bar
      ≤ ((finds.foldl (fun t find => sub find Prod.fst (placedMask mask) none 0 t) t).map
          Prod.fst).count bar := by
  induction finds generalizing t with
  | nil => exact le_rfl
  | cons find finds ih =>
      have hstep : (t.map Prod.fst).count bar
          ≤ ((sub find Prod.fst (placedMask mask) none 0 t).map Prod.fst).count bar :=
        count_le_count_sub (hfinds find List.mem_cons_self) none (by simp)
      exact hstep.trans (ih (fun f hf => hfinds f (List.mem_cons_of_mem _ hf)) _)

/-- The patterns in turn leave a text with masks in it as it is if and only if none of them finds
anything in it: what is masked once more has more bars. -/
theorem foldl_sub_eq_self_iff [DecidableEq α] {finds : List (Finder α)}
    (hfinds : ∀ find ∈ finds, Masks find bar mask) (hb : Begins covered begins) :
    (finds.foldl (fun t find => sub find Prod.fst (placedMask mask) none 0 t)
        (maskedText covered begins mask 0 text)).map Prod.fst
      = (maskedText covered begins mask 0 text).map Prod.fst ↔
      ∀ find ∈ finds, ∀ p, found find bar covered text p = 0 := by
  induction finds with
  | nil => simp
  | cons find finds ih =>
      have hfind := hfinds find List.mem_cons_self
      have hrest := fun f hf => hfinds f (List.mem_cons_of_mem find hf)
      rw [List.foldl_cons, List.forall_mem_cons]
      by_cases hnone : ∀ p, found find bar covered text p = 0
      · rw [sub_of_not_found hfind hb hnone, ih hrest]
        exact (and_iff_right hnone).symm
      · refine iff_of_false (fun heq => ?_) fun h => hnone h.1
        obtain ⟨q, hq⟩ := not_forall.mp hnone
        have hlt := lt_count_sub hfind hb (List.drop_zero (l := text)) (Nat.zero_le q)
          (Nat.pos_of_ne_zero hq)
        have hle := count_le_count_foldl hrest
          (sub find Prod.fst (placedMask mask) none 0 (maskedText covered begins mask 0 text))
        rw [heq] at hle
        exact absurd hlt (not_lt.mpr hle)

end Again

/-! ### Runs over any text -/

section Settling

/-- Where the match ends that a scan is in once it has seen the places before `p`. -/
def scanned (found : ℕ → ℕ) : ℕ → ℕ
  | 0 => 0
  | p + 1 => if scanned found p ≤ p then p + found p else scanned found p

/-- The lengths of the matches that a scan picks. -/
def scan (found : ℕ → ℕ) (p : ℕ) : ℕ := if scanned found p ≤ p then found p else 0

variable {finds : List (Finder α)}

lemma add_scan_le {F : ℕ → ℕ} {a p : ℕ} (hap : a < p) (ha : 0 < scan F a) :
    a + scan F a ≤ scanned F p := by
  induction p with
  | zero => omega
  | succ p ih =>
      rw [scanned]
      rcases Nat.lt_succ_iff_lt_or_eq.mp hap with hap | rfl
      · have := ih hap
        split_ifs <;> omega
      · rw [scan] at ha ⊢
        split_ifs at ha ⊢ with hfree
        · exact le_rfl
        · omega

lemma exists_of_lt_scanned {F : ℕ → ℕ} {p : ℕ} (h : p < scanned F p) :
    ∃ a < p, a + scan F a = scanned F p := by
  induction p with
  | zero => simp [scanned] at h
  | succ p ih =>
      rw [scanned] at h ⊢
      split_ifs at h ⊢ with hfree
      · exact ⟨p, Nat.lt_succ_self p, by rw [scan, if_pos hfree]⟩
      · obtain ⟨a, ha, hend⟩ := ih (by omega)
        exact ⟨a, by omega, hend⟩

/-- Whatever is found, a scan picks its matches. -/
lemma selects_scan (F : ℕ → ℕ) : Selects F (scan F) := by
  refine ⟨fun a ha => ?_, fun a b hab ha hb => ?_, fun p hp => ?_⟩
  · rw [scan] at ha ⊢
    split_ifs at ha ⊢
    · rfl
    · omega
  · have hfree : scanned F b ≤ b := by
      rw [scan] at hb
      split_ifs at hb with hfree
      · exact hfree
      · omega
    exact (add_scan_le hab ha).trans hfree
  · by_cases hfree : scanned F p ≤ p
    · have := hp p le_rfl
      rw [scan, if_pos hfree] at this
      omega
    · obtain ⟨a, ha, hend⟩ := exists_of_lt_scanned (not_le.mp hfree)
      have := hp a ha.le
      omega

/-- Where nothing is picked, nothing was found. -/
lemma Selects.found_eq_zero {F size : ℕ → ℕ} (h : Selects F size) {p : ℕ}
    (hp : ¬picked size p) : F p = 0 := by
  refine h.rest p fun a ha => ?_
  by_contra hlt
  exact hp (picked_iff.mpr ⟨a, ha, not_le.mp hlt⟩)

/-- The patterns find nothing in the text with its masks. -/
def Silent (bar : α) (text : List α) (finds : List (Finder α)) (covered : ℕ → Bool) : Prop :=
  ∀ find ∈ finds, ∀ p, found find bar covered text p = 0

/-- What does not look back finds nothing more in a text with more masks in it. -/
lemma Silent.anti (hfinds : ∀ find ∈ finds, Masks find bar mask)
    (hblind : ∀ find ∈ finds, Blind find) {covered' : ℕ → Bool}
    (hle : ∀ q, covered q → covered' q) (h : Silent bar text finds covered) :
    Silent bar text finds covered' := by
  intro find hfind p
  have hanti : found find bar covered' text p ≤ found find bar covered text p :=
    found_anti (hfinds find hfind) hle p (Or.inl (hblind find hfind))
  exact Nat.le_zero.mp (hanti.trans_eq (h find hfind p))

/-- Patterns that find nothing change nothing. -/
lemma foldl_sub_of_silent (hfinds : ∀ find ∈ finds, Masks find bar mask)
    (hb : Begins covered begins) (h : Silent bar text finds covered) :
    finds.foldl (fun t find => sub find Prod.fst (placedMask mask) none 0 t)
        (maskedText covered begins mask 0 text)
      = maskedText covered begins mask 0 text := by
  induction finds with
  | nil => rfl
  | cons find finds ih =>
      rw [List.foldl_cons, sub_of_not_found (hfinds find List.mem_cons_self) hb
        (h find List.mem_cons_self)]
      exact ih (fun f hf => hfinds f (List.mem_cons_of_mem _ hf))
        fun f hf => h f (List.mem_cons_of_mem _ hf)

/-- Patterns that do not look back leave, in turn, a text with masks in it in which none of them
finds anything. -/
lemma foldl_sub_silent (text : List α) (hfinds : ∀ find ∈ finds, Masks find bar mask)
    (hblind : ∀ find ∈ finds, Blind find) (hb : Begins covered begins) :
    ∃ covered' begins', Begins covered' begins' ∧ (∀ q, covered q → covered' q) ∧
      Silent bar text finds covered' ∧
      finds.foldl (fun t find => sub find Prod.fst (placedMask mask) none 0 t)
          (maskedText covered begins mask 0 text)
        = maskedText covered' begins' mask 0 text := by
  induction finds generalizing covered begins with
  | nil =>
      exact ⟨covered, begins, hb, fun _ hq => hq, fun _ hf => absurd hf List.not_mem_nil, rfl⟩
  | cons find finds ih =>
      have hfind := hfinds find List.mem_cons_self
      have hselects := selects_scan (found find bar covered text)
      obtain ⟨covered', begins', hb', hle, hsilent, hrun⟩ := ih
        (fun f hf => hfinds f (List.mem_cons_of_mem _ hf))
        (fun f hf => hblind f (List.mem_cons_of_mem _ hf))
        (hb.or_picked (scan (found find bar covered text)))
      have hcovered : ∀ q, covered q → covered' q := fun q hq => hle q (by simp [hq])
      refine ⟨covered', begins', hb', hcovered, fun f hf p => ?_, ?_⟩
      · rcases List.mem_cons.mp hf with rfl | hf
        · by_cases hp : covered' p
          · exact found_of_covered hfind hp
          · have hanti : found f bar covered' text p ≤ found f bar covered text p :=
              found_anti hfind hcovered p (Or.inl (hblind f hf))
            have hnot : ¬picked (scan (found f bar covered text)) p := fun hpicked =>
              hp (hle p (by simp [hpicked]))
            exact Nat.le_zero.mp (hanti.trans_eq (hselects.found_eq_zero hnot))
        · exact hsilent f hf p
      · rw [List.foldl_cons, sub_maskedText hfind hb hselects, hrun]

/-- Behind one of its matches the finder finds no less than behind a mask. -/
def Seamless (find : Finder α) (bar : α) : Prop :=
  ∀ prev cs k, find prev cs = k + 1 →
    find (some bar) (cs.drop (k + 1)) ≤ find cs[k]? (cs.drop (k + 1))

/-- The text up to the next mask, from a place further on. -/
lemma uncovered_add {a n : ℕ} (h : ∀ q, a ≤ q → q < a + n → ¬covered q) :
    (uncovered covered a (text.drop a)).drop n = uncovered covered (a + n) (text.drop (a + n)) := by
  induction n generalizing a with
  | zero => rfl
  | succ n ih =>
      cases hcs : text.drop a with
      | nil =>
          have hnil : text.drop (a + (n + 1)) = [] := by
            rw [List.drop_eq_nil_iff] at hcs ⊢
            omega
          rw [hnil]
          rfl
      | cons c cs =>
          have hrest := ih (a := a + 1) fun q hq hlt => h q (by omega) (by omega)
          rw [uncovered, if_neg (h a le_rfl (by omega)), List.drop_succ_cons, ← drop_succ hcs,
            hrest, Nat.add_right_comm, Nat.add_assoc]

lemma getElem?_uncovered {a k : ℕ} (h : k < (uncovered covered a (text.drop a)).length) :
    (uncovered covered a (text.drop a))[k]? = text[a + k]? := by
  obtain ⟨v, hv⟩ : uncovered covered a (text.drop a) <+: text.drop a := uncovered_initial _ _
  have hget : (uncovered covered a (text.drop a) ++ v)[k]?
      = (uncovered covered a (text.drop a))[k]? := List.getElem?_append_left h
  rw [hv, List.getElem?_drop] at hget
  exact hget.symm

/-- What is found behind the masks over the matches that a finder picks was found before. -/
lemma found_or_picked (hfind : Masks find bar mask) (hseam : Seamless find bar) {size : ℕ → ℕ}
    (h : Selects (found find bar covered text) size) (p : ℕ) :
    found find bar (fun q => covered q || picked size q) text p = 0 := by
  by_cases hp : covered p || picked size p
  · exact found_of_covered hfind hp
  rw [Bool.or_eq_true, not_or] at hp
  have hzero := h.found_eq_zero hp.2
  have hle : ∀ q, covered q → covered q || picked size q := fun q hq => by simp [hq]
  refine Nat.le_zero.mp (le_trans ?_ hzero.le)
  by_cases hseamless : ∃ a < p, 0 < size a ∧ a + size a = p
  · -- a match that is picked ends at the place
    obtain ⟨a, hap, hpos, hend⟩ := hseamless
    obtain ⟨k, hk⟩ := Nat.exists_eq_succ_of_ne_zero hpos.ne'
    obtain rfl : p = a + k + 1 := by omega
    have hfound := h.eq a hpos
    rw [hk, found] at hfound
    have hlength := hfind.le_length (before bar covered text a) (uncovered covered a (text.drop a))
    have hclear : ∀ q, a ≤ q → q < a + (k + 1) → ¬covered q := fun q hq hlt =>
      not_covered_of_selects hfind h hq (by omega)
    have hbehind := hseam _ _ k hfound
    rw [uncovered_add hclear, getElem?_uncovered (by omega)] at hbehind
    have hpicked : picked size (a + k) := picked_iff.mpr ⟨a, by omega, by omega⟩
    have hmono := hfind.mono (some bar) _ _ (uncovered_anti hle (a + k + 1) (text.drop (a + k + 1)))
    rw [found, found, before, before, if_pos (by simp [hpicked]),
      if_neg (hclear _ (by omega) (by omega))]
    exact hmono.trans hbehind
  · refine found_anti hfind hle p (Or.inr ?_)
    cases p with
    | zero => rfl
    | succ p =>
        have hpicked : picked size p = false := by
          by_contra hpicked
          obtain ⟨a, ha, hlt⟩ := picked_iff.mp (Bool.eq_true_of_not_eq_false hpicked)
          refine hseamless ⟨a, by omega, by omega, ?_⟩
          by_contra hne
          exact hp.2 (picked_iff.mpr ⟨a, by omega, by omega⟩)
        simp [before, hpicked]

/-- **Two runs are enough**: after the patterns have been applied in turn twice, none of them finds
anything any more, if only the first one looks back, and that one is seamless. -/
theorem foldl_sub_settles (first : Finder α) (rest : List (Finder α))
    (hfinds : ∀ find ∈ first :: rest, Masks find bar mask) (hseam : Seamless first bar)
    (hblind : ∀ find ∈ rest, Blind find) (text : List α) :
    ∃ covered begins, Begins covered begins ∧ Silent bar text (first :: rest) covered ∧
      (first :: rest).foldl (fun t find => sub find Prod.fst (placedMask mask) none 0 t)
          ((first :: rest).foldl (fun t find => sub find Prod.fst (placedMask mask) none 0 t)
            (maskedText (fun _ => false) (fun _ => false) mask 0 text))
        = maskedText covered begins mask 0 text := by
  have hfirst := hfinds first List.mem_cons_self
  have hrest := fun f hf => hfinds f (List.mem_cons_of_mem first hf)
  -- the first run leaves nothing for the patterns that do not look back
  obtain ⟨covered, begins, hb, -, hsilent, hrun⟩ := foldl_sub_silent text hrest hblind
    (begins_none.or_picked (scan (found first bar (fun _ => false) text)))
  -- in the second one only the first pattern finds anything
  have hsize := selects_scan (found first bar covered text)
  have hb' := hb.or_picked (scan (found first bar covered text))
  have hsilent' : Silent bar text rest
      (fun q => covered q || picked (scan (found first bar covered text)) q) :=
    hsilent.anti hrest hblind fun q hq => by simp [hq]
  refine ⟨_, _, hb', fun f hf => ?_, ?_⟩
  · rcases List.mem_cons.mp hf with rfl | hf
    · exact found_or_picked hfirst hseam hsize
    · exact hsilent' f hf
  · have hrun' : (first :: rest).foldl (fun t find => sub find Prod.fst (placedMask mask) none 0 t)
        (maskedText (fun _ => false) (fun _ => false) mask 0 text)
          = maskedText covered begins mask 0 text := by
      rw [List.foldl_cons, sub_maskedText hfirst begins_none (selects_scan _), hrun]
    rw [hrun', List.foldl_cons, sub_maskedText hfirst hb hsize,
      foldl_sub_of_silent hrest hb' hsilent']

end Settling

end Substitute

end GgRelay
