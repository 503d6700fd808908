import Mathlib.Tactic

/-!
`LIKE` patterns over lists of characters.

* `likeTokens` reads a pattern, with or without an escape character, `likeTokensMatch` matches it
  under a comparison of characters;
* `likeTokensMatch_infix`: a pattern between two `%` without wildcards of its own looks for a part;
* `likeTokensMatch_of_suffix`, `likeTokensMatch_map`: what a match does not depend on.
-/

namespace GgRelay

/-- A character that is no capital letter of ASCII is in lower case. -/
lemma toLower_of_not_upper {c : Char} (h : ¬(65 ≤ c.toNat ∧ c.toNat ≤ 90)) : c.toLower = c := by
  delta Char.toLower
  split_ifs with hc
  · exact absurd ⟨hc.1, hc.2⟩ h
  · rfl

lemma toLower_toLower (c : Char) : c.toLower.toLower = c.toLower := by
  by_cases hc : 65 ≤ c.toNat ∧ c.toNat ≤ 90
  · have h : ∀ n < 91, 65 ≤ n → (Char.ofNat n).toLower.toLower = (Char.ofNat n).toLower := by
      decide
    have h := h c.toNat (by omega) hc.1
    rwa [Char.ofNat_toNat] at h
  · rw [toLower_of_not_upper hc, toLower_of_not_upper hc]

/-- What a character of a pattern stands for. -/
inductive LikeToken where
  /-- `%` -/
  | any
  /-- `_` -/
  | one
  | lit (c : Char)
  deriving DecidableEq

/-- The tokens of a pattern; a backslash escapes the next character if there is an escape
character. -/
def likeTokens (escape : Bool) : List Char → List LikeToken
  | [] => []
  | '\\' :: c :: p =>
      if escape then .lit c :: likeTokens escape p else .lit '\\' :: likeTokens escape (c :: p)
  | c :: p =>
      (if c = '%' then .any else if c = '_' then .one else .lit c) :: likeTokens escape p

/-- The text matches the tokens, where `same d c` compares a character with the pattern's. -/
def likeTokensMatch (same : Char → Char → Bool) : List LikeToken → List Char → Bool
  | [], s => s.isEmpty
  | .any :: p, s => s.tails.any (likeTokensMatch same p)
  | .one :: p, s =>
      match s with
      | [] => false
      | _ :: s => likeTokensMatch same p s
  | .lit d :: p, s =>
      match s with
      | [] => false
      | c :: s => same d c && likeTokensMatch same p s

variable {same : Char → Char → Bool} {escape : Bool} {p : List LikeToken} {s t q : List Char}

lemma likeTokensMatch_any :
    likeTokensMatch same (.any :: p) s = true ↔ ∃ t, t <:+ s ∧ likeTokensMatch same p t = true := by
  simp [likeTokensMatch]

/-- What matches at the end of a text matches in every text with this end. -/
lemma likeTokensMatch_of_suffix (h : likeTokensMatch same (.any :: p) s = true) (hst : s <:+ t) :
    likeTokensMatch same (.any :: p) t = true := by
  obtain ⟨u, hu, hmatch⟩ := likeTokensMatch_any.mp h
  exact likeTokensMatch_any.mpr ⟨u, hu.trans hst, hmatch⟩

/-- The plain characters: neither wildcards nor the escape character. -/
def LikePlain (escape : Bool) (c : Char) : Prop :=
  c ≠ '%' ∧ c ≠ '_' ∧ (escape = true → c ≠ '\\')

lemma likeTokens_cons_plain {c : Char} (h : LikePlain escape c) (r : List Char) :
    likeTokens escape (c :: r) = .lit c :: likeTokens escape r := by
  obtain ⟨hpercent, hunderscore, hslash⟩ := h
  by_cases hc : c = '\\'
  · subst hc
    have hescape : escape = false := by
      cases escape with
      | false => rfl
      | true => exact absurd rfl (hslash rfl)
    subst hescape
    cases r with
    | nil => rfl
    | cons d r => rfl
  · rw [likeTokens]
    · rw [if_neg hpercent, if_neg hunderscore]
    · intro _ _ h
      exact absurd h hc

lemma likeTokens_plain_append (h : ∀ c ∈ q, LikePlain escape c) (r : List Char) :
    likeTokens escape (q ++ r) = q.map .lit ++ likeTokens escape r := by
  induction q with
  | nil => rfl
  | cons c q ih =>
      obtain ⟨hc, hq⟩ := List.forall_mem_cons.mp h
      rw [List.cons_append, likeTokens_cons_plain hc, ih hq]
      rfl

lemma likeTokensMatch_lits :
    likeTokensMatch same (q.map .lit ++ p) s = true ↔
      ∃ t u, s = t ++ u ∧ List.Forall₂ (fun d c => same d c = true) q t ∧
        likeTokensMatch same p u = true := by
  induction q generalizing s with
  | nil => simp
  | cons d q ih =>
      cases s with
      | nil => simp [likeTokensMatch]
      | cons c s =>
          rw [List.map_cons, List.cons_append, likeTokensMatch, Bool.and_eq_true, ih]
          constructor
          · rintro ⟨hdc, t, u, rfl, hqt, hu⟩
            exact ⟨c :: t, u, rfl, .cons hdc hqt, hu⟩
          · rintro ⟨t, u, hs, hqt, hu⟩
            cases hqt with
            | cons hdc hqt =>
                obtain ⟨rfl, rfl⟩ := List.cons.inj hs
                exact ⟨hdc, _, _, rfl, hqt, hu⟩

lemma eq_of_forall₂_same (h : List.Forall₂ (fun d c => same d c = true) q t)
    (hsame : ∀ d ∈ q, ∀ c ∈ t, same d c = true → d = c) : q = t := by
  induction h with
  | nil => rfl
  | @cons d c q t hdc _ ih =>
      have htail : q = t := ih fun d hd c hc =>
        hsame d (List.mem_cons_of_mem _ hd) c (List.mem_cons_of_mem _ hc)
      rw [hsame d List.mem_cons_self c List.mem_cons_self hdc, htail]

/-- **A pattern without wildcards between two `%` looks for a part of the text.** -/
theorem likeTokensMatch_infix (hq : ∀ c ∈ q, LikePlain escape c)
    (hsame : ∀ d ∈ q, ∀ c ∈ s, same d c = true ↔ d = c) :
    likeTokensMatch same (likeTokens escape ('%' :: q ++ ['%'])) s = true ↔ q <:+: s := by
  have htokens : likeTokens escape ('%' :: q ++ ['%']) = .any :: (q.map .lit ++ [.any]) := by
    show LikeToken.any :: likeTokens escape (q ++ ['%']) = _
    rw [likeTokens_plain_append hq]
    rfl
  have hrest : ∀ u, likeTokensMatch same [.any] u = true := fun u =>
    likeTokensMatch_any.mpr ⟨[], List.nil_suffix, rfl⟩
  rw [htokens, likeTokensMatch_any]
  constructor
  · rintro ⟨t, ⟨r, rfl⟩, hmatch⟩
    obtain ⟨t, u, rfl, hqt, -⟩ := likeTokensMatch_lits.mp hmatch
    have heq : q = t := eq_of_forall₂_same hqt fun d hd c hc =>
      (hsame d hd c (by simp [hc])).mp
    exact ⟨r, u, by rw [heq, List.append_assoc]⟩
  · rintro ⟨r, u, rfl⟩
    refine ⟨q ++ u, ⟨r, by rw [List.append_assoc]⟩, likeTokensMatch_lits.mpr ⟨q, u, rfl, ?_, hrest u⟩⟩
    refine List.forall₂_same.mpr fun d hd => (hsame d hd d ?_).mpr rfl
    simp [hd]

/-- No backslash of the pattern escapes anything. -/
def LikeUnescaped (escape : Bool) (p : List Char) : Prop := escape = true → '\\' ∉ p

lemma likeTokens_cons_unescaped {c : Char} {r : List Char} (h : LikeUnescaped escape (c :: r)) :
    likeTokens escape (c :: r)
      = (if c = '%' then .any else if c = '_' then .one else .lit c) :: likeTokens escape r := by
  by_cases hc : c = '\\'
  · subst hc
    have hescape : escape = false := by
      cases escape with
      | false => rfl
      | true => exact absurd List.mem_cons_self (h rfl)
    subst hescape
    cases r with
    | nil => rfl
    | cons d r => rfl
  · rw [likeTokens]
    intro _ _ h
    exact absurd h hc

/-- A literal token is no wildcard. -/
lemma lit_mem_likeTokens {d : Char} {r : List Char} (hr : LikeUnescaped escape r)
    (h : .lit d ∈ likeTokens escape r) : d ≠ '%' ∧ d ≠ '_' := by
  induction r with
  | nil => cases h
  | cons c r ih =>
      have hr' : LikeUnescaped escape r := fun he hmem => hr he (List.mem_cons_of_mem _ hmem)
      rw [likeTokens_cons_unescaped hr] at h
      rcases List.mem_cons.mp h with h | h
      · split_ifs at h with hpercent hunderscore
        cases h
        exact ⟨hpercent, hunderscore⟩
      · exact ih hr' h

/-- A text matches the pattern that is written as it. -/
lemma likeTokensMatch_self (hrefl : ∀ c, same c c = true) {r : List Char}
    (hq : LikeUnescaped escape (q ++ r)) (h : likeTokensMatch same (likeTokens escape r) s = true) :
    likeTokensMatch same (likeTokens escape (q ++ r)) (q ++ s) = true := by
  induction q with
  | nil => exact h
  | cons c q ih =>
      have hq' : LikeUnescaped escape (q ++ r) := fun he hmem => hq he (List.mem_cons_of_mem _ hmem)
      rw [List.cons_append] at hq
      rw [List.cons_append, List.cons_append, likeTokens_cons_unescaped hq]
      split_ifs
      · exact likeTokensMatch_any.mpr ⟨_, List.suffix_cons _ _, ih hq'⟩
      · exact ih hq'
      · rw [likeTokensMatch, hrefl, ih hq']
        rfl

/-- A match does not see a change of characters that no literal asks for. -/
theorem likeTokensMatch_map {φ : Char → Char}
    (hφ : ∀ d, .lit d ∈ p → ∀ c, same d c = true → φ c = c)
    (h : likeTokensMatch same p s = true) : likeTokensMatch same p (s.map φ) = true := by
  induction p generalizing s with
  | nil =>
      have hs : s = [] := by simpa [likeTokensMatch] using h
      rw [hs]
      rfl
  | cons x p ih =>
      have hp : ∀ d, .lit d ∈ p → ∀ c, same d c = true → φ c = c := fun d hd =>
        hφ d (List.mem_cons_of_mem _ hd)
      cases x with
      | any =>
          obtain ⟨t, hts, ht⟩ := likeTokensMatch_any.mp h
          exact likeTokensMatch_any.mpr ⟨t.map φ, hts.map φ, ih hp ht⟩
      | one =>
          cases s with
          | nil => cases h
          | cons c s => exact ih hp h
      | lit d =>
          cases s with
          | nil => cases h
          | cons c s =>
              rw [likeTokensMatch, Bool.and_eq_true] at h
              rw [List.map_cons, likeTokensMatch, hφ d List.mem_cons_self c h.1, h.1, ih hp h.2]
              rfl

end GgRelay
