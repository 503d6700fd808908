import Mathlib.Tactic

/-!
Two queues whose items are paired by their keys, each side first come first served.

* `Pairing` has what waits on either side and what has happened, `offerLeft` and `offerRight` are
  the arrivals: an item takes the first item of its key that waits on the other side, or waits;
* `Balanced` is the invariant: on each side the arrivals of a key are those paired and then those
  that wait, and a key waits on one side at most;
* `Balanced.mem_pairs_iff`: the `n`-th arrival on the left is paired with the `n`-th on the right, key
  by key; `Balanced.nodup_lefts` and `Balanced.nodup_rights`: no item is paired twice.
-/

namespace GgRelay

section OfKey

variable {κ γ δ : Type*} [DecidableEq κ]

/-- What has a key. -/
def ofKey (k : κ) (l : List (κ × γ)) : List γ := (l.filter fun x => x.1 = k).map Prod.snd

@[simp] lemma ofKey_append (k : κ) (l l' : List (κ × γ)) :
    ofKey k (l ++ l') = ofKey k l ++ ofKey k l' := by
  rw [ofKey, List.filter_append, List.map_append, ofKey, ofKey]

@[simp] lemma ofKey_singleton_self (k : κ) (c : γ) : ofKey k [(k, c)] = [c] := by simp [ofKey]

lemma ofKey_singleton_ne {k k' : κ} (h : k' ≠ k) (c : γ) : ofKey k [(k', c)] = [] := by
  simp [ofKey, h]

lemma mem_ofKey {k : κ} {c : γ} {l : List (κ × γ)} : c ∈ ofKey k l ↔ (k, c) ∈ l := by
  simp [ofKey]

lemma ofKey_map (k : κ) (f : γ → δ) (l : List (κ × γ)) :
    ofKey k (l.map fun x => (x.1, f x.2)) = (ofKey k l).map f := by
  induction l with
  | nil => rfl
  | cons x l ih =>
      by_cases h : x.1 = k
      · simpa [ofKey, h] using ih
      · simpa [ofKey, h] using ih

/-- The first item of a key is taken out. -/
lemma ofKey_eraseP {k : κ} {c : γ} {l : List (κ × γ)} (h : l.find? (fun x => x.1 = k) = some (k, c)) :
    ofKey k l = c :: ofKey k (l.eraseP fun x => x.1 = k) := by
  induction l with
  | nil => simp at h
  | cons x l ih =>
      by_cases hx : x.1 = k
      · obtain rfl : x = (k, c) := by simpa [hx] using h
        simp [ofKey]
      · simpa [ofKey, hx] using ih (by simpa [hx] using h)

lemma ofKey_eraseP_ne {k k' : κ} (h : k' ≠ k) (l : List (κ × γ)) :
    ofKey k' (l.eraseP fun x => x.1 = k) = ofKey k' l := by
  induction l with
  | nil => rfl
  | cons x l ih =>
      by_cases hx : x.1 = k
      · simp [ofKey, hx, h.symm]
      · rw [List.eraseP_cons_of_neg (by simpa using hx), ofKey, ofKey, List.filter_cons,
          List.filter_cons]
        by_cases hx' : x.1 = k' <;> simpa [ofKey, hx'] using ih

lemma ofKey_eq_nil_iff {k : κ} {l : List (κ × γ)} :
    ofKey k l = [] ↔ l.find? (fun x => x.1 = k) = none := by
  simp [ofKey]

/-- Lists that agree key by key are the same in some order. -/
lemma perm_of_ofKey_eq {l l' : List (κ × γ)} (h : ∀ k, ofKey k l = ofKey k l') : l.Perm l' := by
  classical
  have hcount : ∀ (k : κ) (c : γ) (l : List (κ × γ)), l.count (k, c) = (ofKey k l).count c := by
    intro k c l
    induction l with
    | nil => rfl
    | cons x l ih =>
        obtain ⟨k', c'⟩ := x
        by_cases hk : k' = k
        · subst hk
          have hcons : ofKey k' ((k', c') :: l) = c' :: ofKey k' l := by simp [ofKey]
          rw [hcons, List.count_cons, List.count_cons, ih]
          simp [Prod.ext_iff]
        · have hcons : ofKey k ((k', c') :: l) = ofKey k l := by simp [ofKey, hk]
          rw [hcons, List.count_cons, ih]
          simp [Prod.ext_iff, hk]
  rw [List.perm_iff_count]
  rintro ⟨k, c⟩
  rw [hcount, hcount, h k]

end OfKey

/-- Two queues, with their history. -/
structure Pairing (κ α β : Type*) where
  waitingLeft : List (κ × α) := []
  waitingRight : List (κ × β) := []
  /-- history: what has arrived on either side, and what has been paired -/
  lefts : List (κ × α) := []
  rights : List (κ × β) := []
  pairs : List (κ × α × β) := []

namespace Pairing

variable {κ α β : Type*} [DecidableEq κ]

/-- An item arrives on the left. -/
def offerLeft (k : κ) (a : α) (s : Pairing κ α β) : Pairing κ α β :=
  match s.waitingRight.find? fun x => x.1 = k with
  | some x =>
      { s with
        waitingRight := s.waitingRight.eraseP fun x => x.1 = k
        lefts := s.lefts ++ [(k, a)]
        pairs := s.pairs ++ [(k, a, x.2)] }
  | none =>
      { s with
        waitingLeft := s.waitingLeft ++ [(k, a)]
        lefts := s.lefts ++ [(k, a)] }

/-- An item arrives on the right. -/
def offerRight (k : κ) (b : β) (s : Pairing κ α β) : Pairing κ α β :=
  match s.waitingLeft.find? fun x => x.1 = k with
  | some x =>
      { s with
        waitingLeft := s.waitingLeft.eraseP fun x => x.1 = k
        rights := s.rights ++ [(k, b)]
        pairs := s.pairs ++ [(k, x.2, b)] }
  | none =>
      { s with
        waitingRight := s.waitingRight ++ [(k, b)]
        rights := s.rights ++ [(k, b)] }

/-- The arrivals of a key are those paired and then those that wait, and a key waits on one side at
most. -/
structure Balanced (s : Pairing κ α β) : Prop where
  left : ∀ k, ofKey k s.lefts = (ofKey k s.pairs).map Prod.fst ++ ofKey k s.waitingLeft
  right : ∀ k, ofKey k s.rights = (ofKey k s.pairs).map Prod.snd ++ ofKey k s.waitingRight
  apart : ∀ k, ofKey k s.waitingLeft = [] ∨ ofKey k s.waitingRight = []

variable {s : Pairing κ α β}

lemma balanced_empty : Balanced ({} : Pairing κ α β) :=
  ⟨fun _ => rfl, fun _ => rfl, fun _ => Or.inl rfl⟩

/-- The same queues, seen from the other side. -/
def swap (s : Pairing κ α β) : Pairing κ β α where
  waitingLeft := s.waitingRight
  waitingRight := s.waitingLeft
  lefts := s.rights
  rights := s.lefts
  pairs := s.pairs.map fun p => (p.1, p.2.swap)

lemma balanced_swap (h : s.Balanced) : s.swap.Balanced where
  left k := by
    have hright := h.right k
    simpa [swap, ofKey_map k Prod.swap, Function.comp_def] using hright
  right k := by
    have hleft := h.left k
    simpa [swap, ofKey_map k Prod.swap, Function.comp_def] using hleft
  apart k := (h.apart k).symm

omit [DecidableEq κ] in
lemma swap_swap (s : Pairing κ α β) : s.swap.swap = s := by
  simp [swap, Function.comp_def]

lemma swap_offerRight (k : κ) (b : β) (s : Pairing κ α β) :
    (s.offerRight k b).swap = s.swap.offerLeft k b := by
  rw [offerRight, offerLeft]
  cases h : s.waitingLeft.find? fun x => x.1 = k <;> simp [swap, h]

/-- **An arrival keeps the balance.** -/
lemma Balanced.offerLeft (h : s.Balanced) (k : κ) (a : α) : (s.offerLeft k a).Balanced := by
  rw [Pairing.offerLeft]
  cases hfind : s.waitingRight.find? fun x => x.1 = k with
  | some x =>
      obtain ⟨k', b⟩ := x
      obtain rfl : k' = k := by simpa using List.find?_some hfind
      have hright := ofKey_eraseP hfind
      have hleft : ofKey k' s.waitingLeft = [] :=
        (h.apart k').resolve_right (by rw [hright]; exact List.cons_ne_nil _ _)
      refine ⟨fun l => ?_, fun l => ?_, fun l => ?_⟩
      · by_cases hl : l = k'
        · subst hl
          simp [h.left l, hleft]
        · simp [h.left l, ofKey_singleton_ne (Ne.symm hl)]
      · by_cases hl : l = k'
        · subst hl
          simp [h.right l, hright]
        · simp [h.right l, ofKey_singleton_ne (Ne.symm hl), ofKey_eraseP_ne hl]
      · by_cases hl : l = k'
        · subst hl
          exact Or.inl hleft
        · simp only [ofKey_eraseP_ne hl]
          exact h.apart l
  | none =>
      have hright := ofKey_eq_nil_iff.mpr hfind
      refine ⟨fun l => ?_, h.right, fun l => ?_⟩
      · simp [h.left l]
      · by_cases hl : l = k
        · subst hl
          exact Or.inr hright
        · simpa [ofKey_singleton_ne (Ne.symm hl)] using h.apart l

lemma Balanced.offerRight (h : s.Balanced) (k : κ) (b : β) : (s.offerRight k b).Balanced := by
  rw [← swap_swap (s.offerRight k b), swap_offerRight]
  exact balanced_swap ((balanced_swap h).offerLeft k b)

/-- **First come, first served**, key by key. -/
theorem Balanced.mem_pairs_iff (h : s.Balanced) {k : κ} {a : α} {b : β} : (k, a, b) ∈ s.pairs ↔
    ∃ n : ℕ, (ofKey k s.lefts)[n]? = some a ∧ (ofKey k s.rights)[n]? = some b := by
  rw [← mem_ofKey, List.mem_iff_getElem?]
  refine exists_congr fun n => ?_
  rw [h.left k, h.right k]
  by_cases hn : n < (ofKey k s.pairs).length
  · rw [List.getElem?_append_left (by simpa using hn), List.getElem?_append_left (by simpa using hn)]
    simp [List.getElem?_eq_getElem hn, Prod.ext_iff]
  · have hnone : (ofKey k s.pairs)[n]? = none := List.getElem?_eq_none (not_lt.mp hn)
    rw [hnone]
    rcases h.apart k with hw | hw <;>
      simp [hw, hnone]

/-- An item that has arrived is paired, or waits. -/
lemma Balanced.paired_or_waiting (h : s.Balanced) {k : κ} {a : α} (ha : (k, a) ∈ s.lefts) :
    (∃ b, (k, a, b) ∈ s.pairs) ∨ (k, a) ∈ s.waitingLeft := by
  rw [← mem_ofKey, h.left k, List.mem_append] at ha
  rcases ha with ha | ha
  · obtain ⟨⟨a, b⟩, hab, rfl⟩ := List.mem_map.mp ha
    exact Or.inl ⟨b, mem_ofKey.mp hab⟩
  · exact Or.inr (mem_ofKey.mp ha)

/-- **No two items of one key are left over.** -/
theorem Balanced.paired_of_arrived (h : s.Balanced) {k : κ} {a : α} {b : β} (ha : (k, a) ∈ s.lefts)
    (hb : (k, b) ∈ s.rights) : (∃ b', (k, a, b') ∈ s.pairs) ∨ ∃ a', (k, a', b) ∈ s.pairs := by
  rcases h.paired_or_waiting ha with hpair | hwait
  · exact Or.inl hpair
  · rcases (balanced_swap h).paired_or_waiting hb with ⟨a', hpair⟩ | hwait'
    · exact Or.inr ⟨a', by simpa [swap] using hpair⟩
    · rcases h.apart k with hnil | hnil
      · exact absurd (mem_ofKey.mpr hwait) (by simp [hnil])
      · exact absurd (mem_ofKey.mpr hwait') (by simp [swap, hnil])

/-- **No item on the left is paired twice.** -/
theorem Balanced.nodup_lefts (h : s.Balanced) (hids : (s.lefts.map Prod.snd).Nodup) :
    (s.pairs.map fun p => p.2.1).Nodup := by
  have hperm : s.lefts.Perm ((s.pairs.map fun p => (p.1, p.2.1)) ++ s.waitingLeft) := by
    refine perm_of_ofKey_eq fun k => ?_
    rw [ofKey_append, ofKey_map k Prod.fst]
    exact h.left k
  have hnodup := (hperm.map Prod.snd).nodup_iff.mp hids
  rw [List.map_append, List.map_map] at hnodup
  exact hnodup.of_append_left

/-- **No item on the right is paired twice.** -/
theorem Balanced.nodup_rights (h : s.Balanced) (hids : (s.rights.map Prod.snd).Nodup) :
    (s.pairs.map fun p => p.2.2).Nodup := by
  have hswap := (balanced_swap h).nodup_lefts hids
  rwa [swap, List.map_map] at hswap

end Pairing

end GgRelay
