import GgRelay.Store.Listing.Query

/-!
What the filters of `search_sessions` select, against what they are to mean.

* `SearchExact`: the tags filter asks for a member of the array, as `list_sessions` does, and the
  `q` filter for a part of the text of the specification;
* `SearchPlain` is the condition on a filter: no tags, and no wildcards in `q`;
* `tagLike_quoted`: a tag is found in another tag that ends in it after a quote;
* `search_exact_iff` is the result.
-/

namespace GgRelay.Listing

/-- The characters of the two databases that `LIKE` takes for the same. -/
def Dialect.same : Dialect → Char → Char → Bool
  | .sqlite => fun d c => d.toLower = c.toLower
  | .postgresql => fun d c => d = c

/-- `LIKE` has an escape character. -/
def Dialect.escape : Dialect → Bool
  | .sqlite => false
  | .postgresql => true

variable {σ κ : Type} [LinearOrder σ] [LinearOrder κ]

/-! ### What the filters are to mean -/

section Meaning

variable (H : Host σ κ)

/-- One of the tags is a member of the array, as `list_sessions` has it for a single tag. -/
def tagsMeaning (tags : Option (List String)) (r : StoredSession σ) : Bool :=
  (given tags).all fun ts => ts.any fun t => listWhere none (some t) r

/-- The clause for the tags. -/
def tagsClause (tags : Option (List String)) (r : StoredSession σ) : Bool :=
  (given tags).all fun ts => ts.any fun t => tagLike H t r

/-- `q` occurs in the text of the specification, whatever the case. -/
def qMeaning (q : String) (r : StoredSession σ) : Bool :=
  decide ((H.lower q).toList <:+: sqlLower r.specJson.dumps)

/-- What `search_sessions` is to select. -/
def searchMeaning (f : SearchFilter) (r : StoredSession σ) : Bool :=
  ((f.q.filter (· ≠ "")).all fun q => qMeaning H q r) &&
  (f.owner.all fun o => r.owner = some o) &&
  ((given f.status).all fun ss => r.status ∈ ss) &&
  (f.afterTs.all fun t => H.bind t ≤ r.submittedAt) &&
  (f.beforeTs.all fun t => r.submittedAt ≤ H.bind t) &&
  tagsMeaning f.tags r

/-- **The filters mean what they say.** -/
structure SearchExact (f : SearchFilter) : Prop where
  tags : ∀ r : StoredSession σ, tagsClause H f.tags r = tagsMeaning f.tags r
  q : ∀ q ∈ f.q.filter (· ≠ ""), ∀ r : StoredSession σ, qClause H q r = qMeaning H q r
  selects : ∀ rows : List (StoredSession σ),
    rows.filter (searchWhere H f) = rows.filter (searchMeaning H f)

/-- `q` has no character with a meaning of its own. -/
def PlainQ (q : String) : Prop := ∀ c ∈ (H.lower q).toList, LikePlain H.dialect.escape c

/-- No backslash of `q` escapes anything. -/
def UnescapedQ (q : String) : Prop := LikeUnescaped H.dialect.escape (H.lower q).toList

/-- The pattern of `q` matches no specification at all. -/
def DeadQ (q : String) : Prop :=
  ∀ j : Json, sqlLike H (sqlLower j.dumps) ('%' :: (H.lower q).toList ++ ['%']) = false

/-- The condition: there are no tags, and `q` has no wildcards, or is never found anyway. -/
def SearchPlain (f : SearchFilter) : Prop :=
  given f.tags = none ∧
    ∀ q ∈ f.q.filter (· ≠ ""), PlainQ H q ∨ UnescapedQ H q ∧ DeadQ H q

end Meaning

variable {H : Host σ κ}

/-! ### Characters -/

omit [LinearOrder σ] [LinearOrder κ] in
lemma sqlLike_eq (text pattern : List Char) :
    sqlLike H text pattern
      = likeTokensMatch H.dialect.same (likeTokens H.dialect.escape pattern) text := by
  rw [sqlLike]
  cases H.dialect with
  | sqlite => rfl
  | postgresql => rfl

lemma same_refl (d : Dialect) (c : Char) : d.same c c = true := by
  cases d with
  | sqlite => exact decide_eq_true rfl
  | postgresql => exact decide_eq_true rfl

/-- Characters in lower case are told apart. -/
lemma same_iff {d : Dialect} {b c : Char} (hb : b.toLower = b) (hc : c.toLower = c) :
    d.same b c = true ↔ b = c := by
  cases d with
  | sqlite => rw [Dialect.same, decide_eq_true_iff, hb, hc]
  | postgresql => exact decide_eq_true_iff

/-- A character that is no letter is told apart from all others. -/
lemma same_special {d : Dialect} {b c : Char} (hc : c ∈ ['%', '_', '"']) :
    (d.same b c = true → b = c) ∧ (d.same c b = true → b = c) := by
  have hlow : c.toLower = c := by
    simp only [List.mem_cons, List.not_mem_nil, or_false] at hc
    rcases hc with rfl | rfl | rfl <;> rfl
  have hback : b.toLower = c → b = c := by
    intro h
    by_cases hb : 65 ≤ b.toNat ∧ b.toNat ≤ 90
    · have hletters : ∀ n < 91, 65 ≤ n → (Char.ofNat n).toLower ∉ ['%', '_', '"'] := by decide
      have hn := hletters b.toNat (by omega) hb.1
      rw [Char.ofNat_toNat, h] at hn
      exact absurd hc hn
    · rwa [toLower_of_not_upper hb] at h
  cases d with
  | sqlite =>
      refine ⟨fun h => hback ?_, fun h => hback ?_⟩
      · exact (of_decide_eq_true h).trans hlow
      · exact (of_decide_eq_true h).symm.trans hlow
  | postgresql => exact ⟨fun h => of_decide_eq_true h, fun h => (of_decide_eq_true h).symm⟩

lemma toLower_of_mem_sqlLower {text : List Char} {c : Char} (h : c ∈ sqlLower text) :
    c.toLower = c := by
  obtain ⟨b, -, rfl⟩ := List.mem_map.mp h
  exact toLower_toLower b

/-! ### The `q` filter -/

omit [LinearOrder σ] [LinearOrder κ] in
lemma qClause_of_plain {q : String} (h : PlainQ H q) (r : StoredSession σ) :
    qClause H q r = qMeaning H q r := by
  rw [Bool.eq_iff_iff, qClause, sqlLike_eq, qMeaning, decide_eq_true_iff]
  refine likeTokensMatch_infix h fun d hd c hc => same_iff ?_ (toLower_of_mem_sqlLower hc)
  exact H.lower_lower q d hd

omit [LinearOrder σ] [LinearOrder κ] in
/-- What contains an unescaped `q` matches its pattern. -/
lemma sqlLike_of_infix {q : String} {text : List Char} (hq : UnescapedQ H q)
    (h : (H.lower q).toList <:+: text) :
    sqlLike H text ('%' :: (H.lower q).toList ++ ['%']) = true := by
  obtain ⟨u, v, rfl⟩ := h
  have hunescaped : LikeUnescaped H.dialect.escape ((H.lower q).toList ++ ['%']) := by
    intro he hmem
    rcases List.mem_append.mp hmem with hmem | hmem
    · exact hq he hmem
    · exact absurd hmem (by decide)
  have hrest : likeTokensMatch H.dialect.same (likeTokens H.dialect.escape ['%']) v = true :=
    likeTokensMatch_any.mpr ⟨[], List.nil_suffix, rfl⟩
  rw [sqlLike_eq]
  refine likeTokensMatch_any.mpr ⟨(H.lower q).toList ++ v, ?_, ?_⟩
  · exact ⟨u, by rw [List.append_assoc]⟩
  · exact likeTokensMatch_self (same_refl _) hunescaped hrest

omit [LinearOrder σ] [LinearOrder κ] in
lemma qClause_of_dead {q : String} (hq : UnescapedQ H q) (h : DeadQ H q) (r : StoredSession σ) :
    qClause H q r = qMeaning H q r := by
  rw [qClause, h, qMeaning, eq_comm, decide_eq_false_iff_not]
  intro hpart
  have hmatch := sqlLike_of_infix hq hpart
  rw [h] at hmatch
  cases hmatch

/-- The wildcards, replaced. -/
def blankWildcards (c : Char) : Char := if c = '%' ∨ c = '_' then 'z' else c

lemma renaming_blankWildcards : Renaming blankWildcards := by
  intro c
  rw [blankWildcards]
  split_ifs with h
  · refine Or.inr ⟨?_, by decide, by decide, by decide, by decide⟩
    rcases h with rfl | rfl
    · exact ⟨by decide, by decide, by decide, by decide, by decide, by decide⟩
    · exact ⟨by decide, by decide, by decide, by decide, by decide, by decide⟩
  · exact Or.inl rfl

lemma blankWildcards_toLower (c : Char) :
    (blankWildcards c).toLower = blankWildcards c.toLower := by
  rw [blankWildcards]
  split_ifs with h
  · rcases h with rfl | rfl <;> rfl
  · rw [blankWildcards, if_neg]
    rintro (hlow | hlow)
    · exact h (Or.inl ((same_special (d := .sqlite) (b := c) (by decide)).1 (decide_eq_true hlow)))
    · exact h (Or.inr ((same_special (d := .sqlite) (b := c) (by decide)).1 (decide_eq_true hlow)))

omit [LinearOrder σ] [LinearOrder κ] in
/-- **A `q` with a wildcard is not looked for literally**: where its pattern matches a
specification, it matches one without the wildcard. -/
theorem exists_spec_without_wildcards {q : String} (hplain : ¬PlainQ H q) (hq : UnescapedQ H q)
    {j : Json} (h : sqlLike H (sqlLower j.dumps) ('%' :: (H.lower q).toList ++ ['%']) = true) :
    ∃ j : Json, sqlLike H (sqlLower j.dumps) ('%' :: (H.lower q).toList ++ ['%']) = true ∧
      ¬(H.lower q).toList <:+: sqlLower j.dumps := by
  have htext : sqlLower (Json.rename blankWildcards j).dumps
      = (sqlLower j.dumps).map blankWildcards := by
    rw [Json.dumps_rename renaming_blankWildcards, sqlLower, sqlLower, List.map_map, List.map_map]
    exact List.map_congr_left fun c _ => blankWildcards_toLower c
  refine ⟨Json.rename blankWildcards j, ?_, fun hpart => ?_⟩
  · rw [htext, sqlLike_eq]
    rw [sqlLike_eq] at h
    refine likeTokensMatch_map (fun d hd c hdc => ?_) h
    have hd' : d ≠ '%' ∧ d ≠ '_' := by
      refine @lit_mem_likeTokens H.dialect.escape d _ (fun he hmem => ?_) hd
      simp only [List.cons_append, List.mem_cons, List.mem_append, List.not_mem_nil, or_false]
        at hmem
      rcases hmem with hmem | hmem | hmem
      · exact absurd hmem (by decide)
      · exact hq he hmem
      · exact absurd hmem (by decide)
    rw [blankWildcards, if_neg]
    rintro (rfl | rfl)
    · exact hd'.1 ((same_special (by decide)).1 hdc)
    · exact hd'.2 ((same_special (by decide)).1 hdc)
  · rw [htext] at hpart
    -- a wildcard of `q` would be in the text
    refine hplain fun c hc => ?_
    obtain ⟨b, -, rfl⟩ := List.mem_map.mp (hpart.subset hc)
    refine ⟨?_, ?_, fun he hslash => hq he (hslash ▸ hc)⟩
    · rw [blankWildcards]
      split_ifs with hb
      · decide
      · exact fun h => hb (Or.inl h)
    · rw [blankWildcards]
      split_ifs with hb
      · decide
      · exact fun h => hb (Or.inr h)

/-! ### The tags filter -/

lemma tagsText_singleton (t : String) : tagsText [t] = '[' :: (jsonStr t ++ [']']) := rfl

/-- A tag that ends in another after a quote. -/
def quoted (n : ℕ) (t : String) : String := String.ofList (List.replicate n 'z' ++ '"' :: t.toList)

lemma suffix_tagsText_quoted (n : ℕ) (t : String) :
    jsonStr t ++ [']'] <:+ tagsText [quoted n t] := by
  refine ⟨'[' :: '"' :: jsonBody (List.replicate n 'z') ++ ['\\'], ?_⟩
  rw [tagsText_singleton, jsonStr, jsonStr, quoted, String.toList_ofList]
  simp only [jsonBody, List.flatMap_append, List.flatMap_cons]
  simp [jsonChar]

omit [LinearOrder σ] [LinearOrder κ] in
/-- **A tag that is found in the text of a list is found in another list**, where it is no tag. -/
theorem tagLike_quoted {r s : StoredSession σ} {t u : String} (n : ℕ) (hr : r.tags = [u])
    (hs : s.tags = [quoted n u]) (h : tagLike H t r = true) : tagLike H t s = true := by
  have hquote : LikePlain H.dialect.escape '"' := ⟨by decide, by decide, fun _ => by decide⟩
  have htokens : likeTokens H.dialect.escape ('%' :: '"' :: t.toList ++ ['"', '%'])
      = .any :: .lit '"' :: likeTokens H.dialect.escape (t.toList ++ ['"', '%']) := by
    show LikeToken.any :: likeTokens H.dialect.escape ('"' :: (t.toList ++ ['"', '%'])) = _
    rw [likeTokens_cons_plain hquote]
  rw [tagLike, sqlLike_eq, htokens] at h ⊢
  rw [hr, tagsText_singleton] at h
  rw [hs]
  -- the match begins at a quote, and so behind the bracket
  obtain ⟨v, hv, hmatch⟩ := likeTokensMatch_any.mp h
  have hv' : v <:+ jsonStr u ++ [']'] := by
    rcases List.suffix_cons_iff.mp hv with rfl | hv
    · rw [likeTokensMatch, Bool.and_eq_true] at hmatch
      exact absurd ((same_special (by decide)).2 hmatch.1) (by decide)
    · exact hv
  exact likeTokensMatch_any.mpr ⟨v, hv'.trans (suffix_tagsText_quoted n u), hmatch⟩

omit [LinearOrder σ] [LinearOrder κ] in
/-- No tags filter is exact. -/
lemma given_eq_none_of_exact [Inhabited σ] {tags : Option (List String)}
    (h : ∀ r : StoredSession σ, tagsClause H tags r = tagsMeaning tags r) : given tags = none := by
  cases hgiven : given tags with
  | none => rfl
  | some ts =>
      exfalso
      obtain ⟨u, us, rfl⟩ : ∃ u us, ts = u :: us := by
        obtain ⟨-, hne⟩ := Option.filter_eq_some_iff.mp hgiven
        exact List.exists_cons_of_ne_nil (by simpa using hne)
      let n := ((u :: us).map fun t => t.toList.length).sum
      let r : StoredSession σ := ⟨"", default, "", none, [u], .scalar .null⟩
      let s : StoredSession σ := ⟨"", default, "", none, [quoted n u], .scalar .null⟩
      have hr : tagsClause H tags r = true := by
        rw [h, tagsMeaning, hgiven]
        simp [listWhere, tagFilterClause, r]
      obtain ⟨t, ht, hlike⟩ : ∃ t ∈ u :: us, tagLike H t r = true := by
        rw [tagsClause, hgiven] at hr
        exact List.any_eq_true.mp hr
      have hs : tagsClause H tags s = true := by
        rw [tagsClause, hgiven]
        exact List.any_eq_true.mpr ⟨t, ht, tagLike_quoted n rfl rfl hlike⟩
      rw [h, tagsMeaning, hgiven] at hs
      obtain ⟨t', ht', hmem⟩ := List.any_eq_true.mp hs
      have hquoted : t' = quoted n u := by simpa [listWhere, tagFilterClause, s] using hmem
      have hlength : t'.toList.length ≤ n :=
        List.le_sum_of_mem (List.mem_map.mpr ⟨t', ht', rfl⟩)
      rw [hquoted, quoted, String.toList_ofList] at hlength
      simp at hlength

/-! ### The result -/

omit [LinearOrder κ] in
lemma searchWhere_eq_meaning {f : SearchFilter}
    (htags : ∀ r : StoredSession σ, tagsClause H f.tags r = tagsMeaning f.tags r)
    (hq : ∀ q ∈ f.q.filter (· ≠ ""), ∀ r : StoredSession σ, qClause H q r = qMeaning H q r)
    (r : StoredSession σ) : searchWhere H f r = searchMeaning H f r := by
  have hqs : ((f.q.filter (· ≠ "")).all fun q => qClause H q r)
      = (f.q.filter (· ≠ "")).all fun q => qMeaning H q r := by
    cases h : f.q.filter (· ≠ "") with
    | none => rfl
    | some q => exact hq q h r
  rw [searchWhere, searchMeaning, hqs, ← htags, tagsClause]

omit [LinearOrder κ] in
/-- **When the search filters mean what they say**: without tags, and with a `q` that has no
wildcard or is never found. The converse leaves out the backslashes of a `q` on PostgreSQL. -/
theorem search_exact_iff [Inhabited σ] (H : Host σ κ) (f : SearchFilter) :
    (SearchPlain H f → SearchExact (σ := σ) H f) ∧
    ((∀ q ∈ f.q, UnescapedQ H q) → SearchExact (σ := σ) H f → SearchPlain H f) := by
  constructor
  · rintro ⟨htags, hqs⟩
    have ht : ∀ r : StoredSession σ, tagsClause H f.tags r = tagsMeaning f.tags r := by
      intro r
      rw [tagsClause, tagsMeaning, htags]
      rfl
    have hq : ∀ q ∈ f.q.filter (· ≠ ""), ∀ r : StoredSession σ,
        qClause H q r = qMeaning H q r := by
      intro q hq r
      rcases hqs q hq with h | ⟨hu, h⟩
      · exact qClause_of_plain h r
      · exact qClause_of_dead hu h r
    exact ⟨ht, hq, fun rows => List.filter_congr fun r _ => searchWhere_eq_meaning ht hq r⟩
  · intro hunescaped h
    refine ⟨given_eq_none_of_exact h.tags, fun q hq => ?_⟩
    by_cases hplain : PlainQ H q
    · exact Or.inl hplain
    · have hu : UnescapedQ H q := hunescaped q (Option.filter_eq_some_iff.mp hq).1
      refine Or.inr ⟨hu, fun j => ?_⟩
      by_contra hmatch
      rw [Bool.not_eq_false] at hmatch
      obtain ⟨j, hj, hnot⟩ := exists_spec_without_wildcards hplain hu hmatch
      have hexact := h.q q hq ⟨"", default, "", none, [], j⟩
      rw [qClause, hj, qMeaning] at hexact
      exact hnot (of_decide_eq_true hexact.symm)

/-- A search for a word is exact. -/
theorem word_exact : SearchExact (σ := Fin 60) (Host.plain .postgresql) { q := some "deploy" } := by
  refine (search_exact_iff (Host.plain .postgresql) { q := some "deploy" }).1 ⟨rfl, fun q hq => ?_⟩
  obtain ⟨hq, -⟩ := Option.filter_eq_some_iff.mp hq
  obtain rfl := Option.some.inj hq
  refine Or.inl fun c hc => ?_
  have h : ∀ c ∈ "deploy".toList, c ≠ '%' ∧ c ≠ '_' ∧ c ≠ '\\' := by simp
  obtain ⟨hpercent, hunderscore, hslash⟩ := h c hc
  exact ⟨hpercent, hunderscore, fun _ => hslash⟩

/-- The tag `a_c` selects a session whose only tag is `abc`, on either database. -/
theorem underscore_not_exact :
    ¬SearchExact (σ := Fin 60) (Host.plain .sqlite) { tags := some ["a_c"] } ∧
    ¬SearchExact (σ := Fin 60) (Host.plain .postgresql) { tags := some ["a_c"] } := by
  constructor
  · intro h
    exact absurd (h.tags ⟨"a", 0, "queued", none, ["abc"], .mapping []⟩) (by decide)
  · intro h
    exact absurd (h.tags ⟨"a", 0, "queued", none, ["abc"], .mapping []⟩) (by decide)

end GgRelay.Listing
