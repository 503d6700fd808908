import Mathlib.Tactic

/-!
Rows of the items of a regular expression, each of which takes all it can and gives nothing back.
A backtracking matcher reads them alike where no item admits what the next one needs.

* `matchItems` reads a row at the start of a text and says how many characters it takes;
* `matchItems_mono`: with more text behind, a row takes no less;
* `matchItems_append_bar`: what stands behind a character that no item admits is not looked at.
-/

namespace GgRelay

namespace Regex

/-- An item of a row; `p` is a set of characters. -/
inductive Item (α : Type) where
  /-- `[p]` -/
  | one (p : α → Bool)
  /-- `[p]?` -/
  | opt (p : α → Bool)
  /-- `[p]*` -/
  | many (p : α → Bool)
  /-- `(?![p])` -/
  | notBefore (p : α → Bool)

variable {α : Type}

/-- The set of an item. -/
def Item.set : Item α → α → Bool
  | .one p | .opt p | .many p | .notBefore p => p

/-- How many characters a row takes from the start of a text. -/
@[grind] def matchItems : List (Item α) → List α → Option ℕ
  | [], _ => some 0
  | .one _ :: _, [] => none
  | .one p :: row, c :: cs => if p c then (matchItems row cs).map (· + 1) else none
  | .opt _ :: row, [] => matchItems row []
  | .opt p :: row, c :: cs =>
      if p c then (matchItems row cs).map (· + 1) else matchItems row (c :: cs)
  | .many p :: row, cs =>
      (matchItems row (cs.dropWhile p)).map (· + (cs.takeWhile p).length)
  | .notBefore _ :: row, [] => matchItems row []
  | .notBefore p :: row, c :: cs => if p c then none else matchItems row (c :: cs)

@[simp] lemma matchItems_many_nil {p : α → Bool} {row : List (Item α)} :
    matchItems (.many p :: row) [] = matchItems row [] := by simp [matchItems]

/-- A repetition takes one character after the other. -/
lemma matchItems_many_cons {p : α → Bool} {row : List (Item α)} {c : α} {cs : List α} :
    matchItems (.many p :: row) (c :: cs) =
      if p c then (matchItems (.many p :: row) cs).map (· + 1) else matchItems row (c :: cs) := by
  by_cases hc : p c
  · simp [matchItems, hc, Function.comp_def, Nat.add_assoc]
  · simp [matchItems, hc]

/-- `[p]+`. -/
def some1 (p : α → Bool) : List (Item α) := [.one p, .many p]

/-- `[p]{n}`. -/
def times (n : ℕ) (p : α → Bool) : List (Item α) := List.replicate n (.one p)

lemma le_length_of_matchItems {row : List (Item α)} {cs : List α} {n : ℕ}
    (h : matchItems row cs = some n) : n ≤ cs.length := by
  induction row generalizing cs n with
  | nil =>
      obtain rfl := Option.some.inj h
      exact Nat.zero_le _
  | cons item row ih =>
      cases item with
      | one p =>
          cases cs with
          | nil => simp [matchItems] at h
          | cons c cs =>
              simp only [matchItems, Option.ite_none_right_eq_some, Option.map_eq_some_iff] at h
              obtain ⟨-, m, hm, rfl⟩ := h
              simpa using ih hm
      | opt p =>
          cases cs with
          | nil => exact ih h
          | cons c cs =>
              rw [matchItems] at h
              split_ifs at h with hc
              · obtain ⟨m, hm, rfl⟩ := Option.map_eq_some_iff.mp h
                simpa using ih hm
              · exact ih h
      | many p =>
          obtain ⟨m, hm, rfl⟩ := Option.map_eq_some_iff.mp h
          have hsplit := congrArg List.length (List.takeWhile_append_dropWhile (p := p) (l := cs))
          rw [List.length_append] at hsplit
          have := ih hm
          omega
      | notBefore p =>
          cases cs with
          | nil => exact ih h
          | cons c cs =>
              rw [matchItems] at h
              split_ifs at h
              exact ih h

/-- A repetition with an optional character behind it ends with that character, or in front of one
that it does not take. -/
lemma matchItems_many_opt {p q : α → Bool} {cs : List α} {n : ℕ}
    (h : matchItems [.many p, .opt q] cs = some n) :
    (∃ k, n = k + 1 ∧ ∃ c, cs[k]? = some c ∧ q c) ∨ ∀ c ∈ cs[n]?, ¬p c := by
  induction cs generalizing n with
  | nil => exact Or.inr (by simp)
  | cons c cs ih =>
      rw [matchItems_many_cons] at h
      split_ifs at h with hp
      · obtain ⟨m, hm, rfl⟩ := Option.map_eq_some_iff.mp h
        refine (ih hm).imp ?_ id
        rintro ⟨k, rfl, d, hd, hq⟩
        exact ⟨k + 1, rfl, d, hd, hq⟩
      · rw [matchItems] at h
        split_ifs at h with hq
        · obtain ⟨m, hm, rfl⟩ := Option.map_eq_some_iff.mp h
          obtain rfl := Option.some.inj hm
          exact Or.inl ⟨0, rfl, c, rfl, hq⟩
        · obtain rfl := Option.some.inj h
          exact Or.inr (by simpa using hp)

/-- One row behind the other. -/
lemma matchItems_append (row row' : List (Item α)) (cs : List α) :
    matchItems (row ++ row') cs =
      (matchItems row cs).bind fun n => (matchItems row' (cs.drop n)).map (n + ·) := by
  induction row generalizing cs with
  | nil => simp [matchItems]
  | cons item row ih =>
      cases item with
      | one p =>
          cases cs with
          | nil => simp [matchItems]
          | cons c cs =>
              rw [List.cons_append, matchItems, matchItems]
              split_ifs
              · simp [ih, Option.map_bind, Option.bind_map, Function.comp_def,
                  Nat.add_right_comm]
              · rfl
      | opt p =>
          cases cs with
          | nil => simpa [matchItems] using ih []
          | cons c cs =>
              rw [List.cons_append, matchItems, matchItems]
              split_ifs
              · simp [ih, Option.map_bind, Option.bind_map, Function.comp_def,
                  Nat.add_right_comm]
              · exact ih _
      | many p =>
          have hdrop : ∀ n, cs.drop (n + (cs.takeWhile p).length) = (cs.dropWhile p).drop n := by
            intro n
            have hrest : cs.drop (cs.takeWhile p).length = cs.dropWhile p := by
              have : (cs.takeWhile p ++ cs.dropWhile p).drop (cs.takeWhile p).length
                  = cs.dropWhile p := List.drop_left
              rwa [List.takeWhile_append_dropWhile] at this
            rw [Nat.add_comm, ← List.drop_drop, hrest]
          simp [matchItems, ih, hdrop, Option.map_bind, Option.bind_map, Function.comp_def,
            Nat.add_right_comm]
      | notBefore p =>
          cases cs with
          | nil => simpa [matchItems] using ih []
          | cons c cs =>
              rw [List.cons_append, matchItems, matchItems]
              split_ifs
              · rfl
              · exact ih _

/-! ### More text behind -/

/-- A row that looks ahead goes on to take something. -/
def Firm : List (Item α) → Prop
  | [] => True
  | .notBefore _ :: row => matchItems row [] = none ∧ Firm row
  | _ :: row => Firm row

/-- A row that needs no character matches anywhere. -/
lemma isSome_of_nil (row : List (Item α)) (hrow : Firm row) (h : (matchItems row []).isSome)
    (cs : List α) : (matchItems row cs).isSome := by
  induction row generalizing cs with
  | nil => rfl
  | cons item row ih =>
      cases item with
      | one p => simp [matchItems] at h
      | opt p =>
          cases cs with
          | nil => exact h
          | cons c cs =>
              rw [matchItems]
              split_ifs
              · simpa using ih hrow h cs
              · exact ih hrow h _
      | many p =>
          rw [matchItems, Option.isSome_map]
          exact ih hrow (by simpa [matchItems] using h) _
      | notBefore p => simp [matchItems, hrow.1] at h

/-- With more text behind, a row takes no less. -/
theorem matchItems_mono {row : List (Item α)} (hrow : Firm row) {u v : List α} (h : u <+: v)
    {n : ℕ} (hn : matchItems row u = some n) : ∃ m, matchItems row v = some m ∧ n ≤ m := by
  induction row generalizing u v n with
  | nil => exact ⟨0, rfl, by simp_all [matchItems]⟩
  | cons item row ih =>
      cases item with
      | one p =>
          cases u with
          | nil => simp [matchItems] at hn
          | cons c u =>
              obtain ⟨v, rfl, hv⟩ := List.cons_prefix_iff.mp h
              simp only [matchItems, Option.ite_none_right_eq_some, Option.map_eq_some_iff] at hn ⊢
              obtain ⟨hc, k, hk, rfl⟩ := hn
              obtain ⟨m, hm, hle⟩ := ih hrow hv hk
              exact ⟨m + 1, ⟨hc, m, hm, rfl⟩, by omega⟩
      | opt p =>
          cases u with
          | nil =>
              have hzero : n = 0 := by simpa using le_length_of_matchItems hn
              have htotal := isSome_of_nil (.opt p :: row) hrow (by simp [hn]) v
              obtain ⟨m, hm⟩ := Option.isSome_iff_exists.mp htotal
              exact ⟨m, hm, by omega⟩
          | cons c u =>
              obtain ⟨v, rfl, hv⟩ := List.cons_prefix_iff.mp h
              rw [matchItems] at hn ⊢
              split_ifs at hn ⊢ with hc
              · obtain ⟨k, hk, rfl⟩ := Option.map_eq_some_iff.mp hn
                obtain ⟨m, hm, hle⟩ := ih hrow hv hk
                exact ⟨m + 1, by simp [hm], by omega⟩
              · exact ih hrow h hn
      | many p =>
          induction u generalizing v n with
          -- the text ends within the repetition: what follows needs no character
          | nil =>
              have hzero : n = 0 := by simpa using le_length_of_matchItems hn
              have htotal := isSome_of_nil (.many p :: row) hrow (by simp [hn]) v
              obtain ⟨m, hm⟩ := Option.isSome_iff_exists.mp htotal
              exact ⟨m, hm, by omega⟩
          | cons c u ihu =>
              obtain ⟨v, rfl, hv⟩ := List.cons_prefix_iff.mp h
              rw [matchItems_many_cons] at hn ⊢
              split_ifs at hn ⊢ with hc
              · obtain ⟨k, hk, rfl⟩ := Option.map_eq_some_iff.mp hn
                obtain ⟨m, hm, hle⟩ := ihu hv hk
                exact ⟨m + 1, by simp [hm], by omega⟩
              · exact ih hrow h hn
      | notBefore p =>
          cases u with
          | nil => simp [matchItems, hrow.1] at hn
          | cons c u =>
              obtain ⟨v, rfl, hv⟩ := List.cons_prefix_iff.mp h
              rw [matchItems] at hn ⊢
              split_ifs at hn ⊢
              exact ih hrow.2 h hn

/-- A row that takes nothing needs nothing. -/
lemma matchItems_nil_of_zero {row : List (Item α)} {v : List α} (h : matchItems row v = some 0) :
    matchItems row [] = some 0 := by
  induction row generalizing v with
  | nil => rfl
  | cons item row ih =>
      cases v with
      | nil => exact h
      | cons c v =>
          cases item with
          | one p => simp [matchItems] at h
          | opt p =>
              rw [matchItems] at h
              split_ifs at h
              · simp at h
              · exact ih h
          | many p =>
              rw [matchItems_many_cons] at h
              rw [matchItems_many_nil]
              split_ifs at h
              · simp at h
              · exact ih h
          | notBefore p =>
              rw [matchItems] at h
              split_ifs at h
              exact ih h

/-- With less text behind, but with all that it takes, a row takes the same. -/
theorem matchItems_of_shorter {row : List (Item α)} {u v : List α} (h : u <+: v) {n : ℕ}
    (hn : matchItems row v = some n) (hle : n ≤ u.length) : matchItems row u = some n := by
  have hnil : ∀ {row : List (Item α)} {v : List α} {n : ℕ}, matchItems row v = some n →
      n ≤ ([] : List α).length → matchItems row [] = some n := by
    intro row v n hn hle
    obtain rfl : n = 0 := by simpa using hle
    exact matchItems_nil_of_zero hn
  induction row generalizing u v n with
  | nil => simpa [matchItems] using hn
  | cons item row ih =>
      cases item with
      | one p =>
          cases u with
          | nil => exact hnil hn hle
          | cons c u =>
              obtain ⟨v, rfl, hv⟩ := List.cons_prefix_iff.mp h
              simp only [matchItems, Option.ite_none_right_eq_some, Option.map_eq_some_iff] at hn ⊢
              obtain ⟨hc, k, hk, rfl⟩ := hn
              exact ⟨hc, k, ih hv hk (by simpa using hle), rfl⟩
      | opt p =>
          cases u with
          | nil => exact hnil hn hle
          | cons c u =>
              obtain ⟨v, rfl, hv⟩ := List.cons_prefix_iff.mp h
              rw [matchItems] at hn ⊢
              split_ifs at hn ⊢
              · obtain ⟨k, hk, rfl⟩ := Option.map_eq_some_iff.mp hn
                rw [ih hv hk (by simpa using hle)]
                rfl
              · exact ih h hn hle
      | many p =>
          induction u generalizing v n with
          | nil => exact hnil hn hle
          | cons c u ihu =>
              obtain ⟨v, rfl, hv⟩ := List.cons_prefix_iff.mp h
              rw [matchItems_many_cons] at hn ⊢
              split_ifs at hn ⊢
              · obtain ⟨k, hk, rfl⟩ := Option.map_eq_some_iff.mp hn
                rw [ihu hv (by simpa using hle) hk]
                rfl
              · exact ih h hn hle
      | notBefore p =>
          cases u with
          | nil => exact hnil hn hle
          | cons c u =>
              obtain ⟨v, rfl, hv⟩ := List.cons_prefix_iff.mp h
              rw [matchItems] at hn ⊢
              split_ifs at hn ⊢
              exact ih h hn hle

/-! ### A character that no item admits -/

/-- What stands behind a character that no item admits is not looked at. -/
theorem matchItems_append_bar {row : List (Item α)} {bar : α}
    (hbar : ∀ item ∈ row, item.set bar = false) (u v : List α) :
    matchItems row (u ++ bar :: v) = matchItems row u := by
  induction row generalizing u with
  | nil => rfl
  | cons item row ih =>
      have hrow := ih fun item h => hbar item (List.mem_cons_of_mem _ h)
      have hitem := hbar item List.mem_cons_self
      cases item with
      | one p =>
          cases u with
          | nil => simp_all [matchItems, Item.set]
          | cons c u => simp [matchItems, hrow]
      | opt p =>
          cases u with
          | nil =>
              have hnil := hrow []
              simp_all [matchItems, Item.set]
          | cons c u =>
              have hcons := hrow (c :: u)
              simp_all [matchItems]
      | many p =>
          induction u with
          | nil =>
              have hnil := hrow []
              simp_all [matchItems_many_cons, Item.set]
          | cons c u ihu =>
              have hcons := hrow (c :: u)
              simp_all [matchItems_many_cons]
      | notBefore p =>
          cases u with
          | nil =>
              have hnil := hrow []
              simp_all [matchItems, Item.set]
          | cons c u =>
              have hcons := hrow (c :: u)
              simp_all [matchItems]

/-! ### Alternatives -/

/-- A row can begin with a character of the set of its first item only. -/
def begins : List (Item α) → α → Bool
  | .one p :: _, c => p c
  | _, _ => true

lemma begins_of_matchItems {row : List (Item α)} {c : α} {cs : List α} {n : ℕ}
    (h : matchItems row (c :: cs) = some n) : begins row c := by
  cases row with
  | nil => rfl
  | cons item row =>
      cases item with
      | one p =>
          by_contra hc
          simp only [begins] at hc
          simp [matchItems, hc] at h
      | opt p | many p | notBefore p => rfl

lemma findSome?_congr {ι β : Type} {f g : ι → Option β} {l : List ι} (h : ∀ a ∈ l, f a = g a) :
    l.findSome? f = l.findSome? g := by
  induction l with
  | nil => rfl
  | cons a l ih =>
      rw [List.findSome?_cons, List.findSome?_cons, h a List.mem_cons_self,
        ih fun b hb => h b (List.mem_cons_of_mem _ hb)]

/-- No character can begin two of the rows. -/
def Exclusive (rows : List (List (Item α))) : Prop :=
  rows.Pairwise fun row row' => ∀ c, ¬(begins row c ∧ begins row' c)

/-- The first alternative that matches is the only one. -/
lemma findSome?_matchItems {rows : List (List (Item α))} (h : Exclusive rows)
    {row : List (Item α)} (hrow : row ∈ rows) {c : α} {cs : List α} {n : ℕ}
    (hn : matchItems row (c :: cs) = some n) :
    rows.findSome? (fun row => matchItems row (c :: cs)) = some n := by
  induction rows with
  | nil => simp at hrow
  | cons r rows ih =>
      obtain ⟨hr, hrows⟩ := List.pairwise_cons.mp h
      rcases List.mem_cons.mp hrow with rfl | hrow
      · rw [List.findSome?_cons, hn]
      · have hnone : matchItems r (c :: cs) = none := by
          by_contra hsome
          obtain ⟨m, hm⟩ := Option.ne_none_iff_exists'.mp hsome
          exact hr row hrow c ⟨begins_of_matchItems hm, begins_of_matchItems hn⟩
        rw [List.findSome?_cons, hnone]
        exact ih hrows hrow

end Regex

end GgRelay
