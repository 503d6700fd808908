import GgRelay.Store.Listing.Query

/-!
To which filters a cursor is bound.

* `Bound` says that a cursor is accepted under the same filter only, and refused with a
  `CursorFilterMismatchError` otherwise;
* `filterText_eq_iff`, `searchFilterText_eq_iff` and `auditFilterText_eq_iff` say which filters have
  the same text;
* `cursor_bound_iff` is the result for the three listings, for a hash that is injective.
-/

namespace GgRelay.Listing

/-- A listing goes ahead. -/
def Accepted {α : Type} (result : Except ListingError α) : Prop := ∃ p, result = .ok p

/-- A listing raises `CursorFilterMismatchError`. -/
def Mismatched {α : Type} (result : Except ListingError α) : Prop :=
  ∃ label cursor current, result = .error (.cursorFilterMismatch label cursor current)

/-- **The cursor is bound to its filter.** -/
def Bound {α : Type} (same : Prop) (result : Except ListingError α) : Prop :=
  (Accepted result ↔ same) ∧ (¬same → Mismatched result)

lemma bound_iff {α : Type} {same hashed : Prop} {result : Except ListingError α}
    (hsame : same → hashed) (hok : hashed → Accepted result) (herr : ¬hashed → Mismatched result) :
    Bound same result ↔ same ∨ ¬hashed := by
  constructor
  · rintro ⟨haccepted, -⟩
    by_cases h : hashed
    · exact Or.inl (haccepted.mp (hok h))
    · exact Or.inr h
  · intro h
    have hiff : Accepted result ↔ hashed := by
      refine ⟨fun ⟨p, hp⟩ => ?_, hok⟩
      by_contra hne
      obtain ⟨_, _, _, he⟩ := herr hne
      rw [hp] at he
      cases he
    rcases h with h | h
    · exact ⟨⟨fun _ => h, fun h => hok (hsame h)⟩, fun hne => absurd h hne⟩
    · exact ⟨⟨fun ha => absurd (hiff.mp ha) h, fun hs => absurd (hsame hs) h⟩, fun _ => herr h⟩

section Listing

variable {ρ α : Type} {newer : ρ → ρ → Prop} [DecidableRel newer]
  {decode : Cursor → Except ListingError α} {behind : α → ρ → Bool} {encode : ρ → Cursor}
  {sel : ρ → Bool} {limit : ℕ} {rows : List ρ} {c : Cursor}

lemma listing_accepted {a : α} (h : decode c = .ok a) :
    Accepted (listing newer decode behind encode sel limit (some c) rows) := by
  unfold listing
  simp only [Option.mapM_some, h]
  exact ⟨_, rfl⟩

lemma listing_mismatched {label current : String} {cursor : Json}
    (h : decode c = .error (.cursorFilterMismatch label cursor current)) :
    Mismatched (listing newer decode behind encode sel limit (some c) rows) := by
  refine ⟨label, cursor, current, ?_⟩
  simp only [listing, Option.mapM_some, h]
  rfl

end Listing

/-! ### The texts of the filters -/

lemma separator_of {sep : String} {c : Char} {cs : List Char} (h : sep.toList = c :: cs)
    (hc : c ∉ cs) : Separator sep := ⟨c, cs, h, hc⟩

/-- Two filters of `list_sessions` whose texts are the same: with `*` for what is absent or empty,
the separator can be moved from its place in the one to its place in the other. -/
def ListCollide (f g : Option String × Option String) : Prop :=
  Relation.EqvGen (Moved ["|"]) [orStar f.1, orStar f.2] [orStar g.1, orStar g.2]

lemma filterText_eq_iff (f g : Option String × Option String) :
    filterText f.1 f.2 = filterText g.1 g.2 ↔ ListCollide f g := by
  refine joinFields_eq_iff ?_ rfl rfl
  exact List.forall_mem_singleton.mpr (separator_of rfl (by decide))

/-- Two audit filters whose texts are the same: with `*` for what is absent or empty, the separators
can be moved from their places in the one to their places in the other. -/
def AuditCollide (f g : AuditFilter) : Prop :=
  Relation.EqvGen (Moved ["|actor=", "|target_id=", "|target_type="])
    [orStar f.action, orStar f.actor, orStar f.targetId, orStar f.targetType]
    [orStar g.action, orStar g.actor, orStar g.targetId, orStar g.targetType]

lemma append_left_cancel {p s t : String} (h : p ++ s = p ++ t) : s = t := by
  refine String.toList_injective ?_
  have h := congrArg String.toList h
  rw [String.toList_append, String.toList_append] at h
  exact List.append_cancel_left h

lemma auditFilterText_eq_iff (f g : AuditFilter) :
    auditFilterText f = auditFilterText g ↔ AuditCollide f g := by
  have hseps : ∀ sep ∈ ["|actor=", "|target_id=", "|target_type="], Separator sep := by
    simp only [List.forall_mem_cons]
    exact ⟨separator_of rfl (by decide), separator_of rfl (by decide),
      separator_of rfl (by decide), by simp⟩
  rw [AuditCollide, ← joinFields_eq_iff hseps rfl rfl]
  exact ⟨append_left_cancel, fun h => congrArg ("action=" ++ ·) h⟩

/-- Two search filters that are the same, with their lists as multisets. -/
def SearchFilter.Same (f g : SearchFilter) : Prop :=
  f.q = g.q ∧ f.owner = g.owner ∧
    f.tags.map Multiset.ofList = g.tags.map Multiset.ofList ∧
    f.status.map Multiset.ofList = g.status.map Multiset.ofList ∧
    f.afterTs = g.afterTs ∧ f.beforeTs = g.beforeTs

/-- Two search filters whose texts are the same: the same times and, with an absent list taken for
an empty one, the same lists; with `*` for an absent owner or `q`, the separator between the two can
be moved from its place in the one filter to its place in the other. -/
def SearchCollide (f g : SearchFilter) : Prop :=
  f.afterTs = g.afterTs ∧ f.beforeTs = g.beforeTs ∧
    (f.status.getD []).Perm (g.status.getD []) ∧ (f.tags.getD []).Perm (g.tags.getD []) ∧
    Relation.EqvGen (Moved ["|q="]) [f.owner.getD "*", f.q.getD "*"] [g.owner.getD "*", g.q.getD "*"]

section Search

variable {σ κ : Type} {H : Host σ κ}

/-- No separator is in the text of a time. -/
lemma bar_notMem_timeText (t : Option DateTime) : '|' ∉ (timeText t).toList := by
  cases t with
  | none => decide
  | some t =>
      intro h
      rcases mem_isoformat _ h with h | h
      · exact absurd h (by decide)
      · exact absurd h (by decide)

lemma timeText_injective : Function.Injective timeText := by
  have hstar : ∀ t : DateTime, t.isoformat ≠ "*" := by
    intro t h
    have hmem : '*' ∈ t.isoformat.toList := by
      rw [h]
      decide
    rcases mem_isoformat _ hmem with h | h
    · exact absurd h (by decide)
    · exact absurd h (by decide)
  intro t u h
  cases t with
  | none =>
      cases u with
      | none => rfl
      | some u => exact absurd h.symm (hstar u)
  | some t =>
      cases u with
      | none => exact absurd h (hstar t)
      | some u => exact congrArg some (isoformat_injective h)

/-- A field without the separator's first character ends where the separator begins. -/
lemma append_sep_eq_of_notMem {sep f g x y : String} {c : Char} {cs : List Char}
    (hsep : sep.toList = c :: cs) (hcs : c ∉ cs) (hf : c ∉ f.toList) (hg : c ∉ g.toList)
    (h : f ++ sep ++ x = g ++ sep ++ y) : f = g ∧ x = y := by
  have hmem : ∀ u w : String, c ∈ (u ++ sep ++ w).toList := by
    intro u w
    rw [String.toList_append, String.toList_append, hsep]
    simp
  rcases append_sep_eq (separator_of hsep hcs) h with h | ⟨w, rfl, -⟩ | ⟨w, rfl, -⟩
  · exact h
  · exact absurd (hmem _ _) hf
  · exact absurd (hmem _ _) hg

/-- The text of a list of a filter. -/
lemma listText_eq (vs : Option (List String)) :
    listText H vs = if vs.getD [] = [] then "*"
      else String.ofList (reprList H.printable ((vs.getD []).insertionSort fun s t => s ≤ t)) := by
  cases vs with
  | none => rfl
  | some vs => rfl

lemma sort_eq_iff {vs ws : List String} :
    vs.insertionSort (fun s t => s ≤ t) = ws.insertionSort (fun s t => s ≤ t) ↔ vs.Perm ws := by
  constructor
  · intro h
    exact (List.perm_insertionSort _ vs).symm.trans (h ▸ List.perm_insertionSort _ ws)
  · intro h
    refine List.Perm.eq_of_pairwise (fun s t _ _ hst hts => le_antisymm hst hts)
      (List.pairwise_insertionSort _ vs) (List.pairwise_insertionSort _ ws) ?_
    exact (List.perm_insertionSort _ vs).trans (h.trans (List.perm_insertionSort _ ws).symm)

lemma listText_eq_iff {vs ws : Option (List String)} :
    listText H vs = listText H ws ↔ (vs.getD []).Perm (ws.getD []) := by
  have hstar : ∀ ss, "*" ≠ String.ofList (reprList H.printable ss) := by
    intro ss h
    have h := congrArg String.toList h
    simp only [String.toList_ofList] at h
    exact absurd (List.cons.inj (show '*' :: [] = '[' :: _ from h)).1 (by decide)
  rw [listText_eq, listText_eq]
  split_ifs with hv hw hw
  · rw [hv, hw]
    simp
  · rw [hv]
    exact ⟨fun h => absurd h (hstar _), fun h => absurd (List.nil_perm.mp h) hw⟩
  · rw [hw]
    exact ⟨fun h => absurd h.symm (hstar _), fun h => absurd (List.perm_nil.mp h) hv⟩
  · rw [← sort_eq_iff]
    constructor
    · intro h
      have h := congrArg String.toList h
      rw [String.toList_ofList, String.toList_ofList] at h
      exact reprList_injective h
    · intro h
      rw [h]

/-- The text of a list of a filter is not the end of another. -/
lemma listText_suffix {vs ws : Option (List String)} {w : String}
    (h : listText H vs = w ++ listText H ws) : w = "" := by
  have hlast : ∀ ss, (reprList H.printable ss).getLast? = some ']' := by
    intro ss
    rw [reprList, List.getLast?_append]
    rfl
  refine String.toList_injective ?_
  have h := congrArg String.toList h
  rw [String.toList_append, listText_eq, listText_eq] at h
  split_ifs at h with hv hw hw
  · have hlength := congrArg List.length h
    rw [List.length_append] at hlength
    exact List.length_eq_zero_iff.mp (by simpa using hlength)
  · simp only [String.toList_ofList] at h
    have h := congrArg List.getLast? h
    rw [List.getLast?_append, hlast] at h
    exact absurd (show some '*' = some ']' from h) (by decide)
  · simp only [String.toList_ofList] at h
    have h := congrArg List.getLast? h
    rw [List.getLast?_append, hlast] at h
    exact absurd (show some ']' = some '*' from h) (by decide)
  · rw [String.toList_ofList, String.toList_ofList] at h
    exact reprList_suffix h

/-- What is before and after the last separator of a text that ends in the text of a list. -/
lemma append_listText_eq {sep x y : String} {vs ws : Option (List String)} (hsep : Separator sep)
    (h : x ++ sep ++ listText H vs = y ++ sep ++ listText H ws) :
    x = y ∧ listText H vs = listText H ws := by
  have hne : ∀ w : String, w ++ sep ≠ "" := by
    intro w hw
    obtain ⟨c, cs, hc, -⟩ := hsep
    have hw := congrArg String.toList hw
    rw [String.toList_append, hc] at hw
    simp at hw
  rcases append_sep_eq hsep h with h | ⟨w, -, h⟩ | ⟨w, -, h⟩
  · exact h
  · exact absurd (listText_suffix h) (hne w)
  · exact absurd (listText_suffix h) (hne w)

/-- **Which search filters have the same text.** -/
theorem searchFilterText_eq_iff (f g : SearchFilter) :
    searchFilterText H f = searchFilterText H g ↔ SearchCollide f g := by
  have hq : ∀ sep ∈ ["|q="], Separator sep :=
    List.forall_mem_singleton.mpr (separator_of rfl (by decide))
  have htext : ∀ f : SearchFilter, searchFilterText H f = "after_ts=" ++ (timeText f.afterTs ++
      "|before_ts=" ++ (timeText f.beforeTs ++ "|owner=" ++
        (joinFields ["|q="] [f.owner.getD "*", f.q.getD "*"] ++ "|status=" ++ listText H f.status
          ++ "|tags=" ++ listText H f.tags))) := by
    intro f
    simp only [searchFilterText, joinFields, String.append_assoc]
  rw [htext, htext, SearchCollide, ← joinFields_eq_iff hq rfl rfl, ← listText_eq_iff (H := H),
    ← listText_eq_iff (H := H)]
  constructor
  · intro h
    obtain ⟨hafter, h⟩ := append_sep_eq_of_notMem rfl (by decide) (bar_notMem_timeText _)
      (bar_notMem_timeText _) (append_left_cancel h)
    obtain ⟨hbefore, h⟩ := append_sep_eq_of_notMem rfl (by decide) (bar_notMem_timeText _)
      (bar_notMem_timeText _) h
    obtain ⟨h, htags⟩ := append_listText_eq (separator_of rfl (by decide)) h
    obtain ⟨h, hstatus⟩ := append_listText_eq (separator_of rfl (by decide)) h
    exact ⟨timeText_injective hafter, timeText_injective hbefore, hstatus, htags, h⟩
  · rintro ⟨hafter, hbefore, hstatus, htags, h⟩
    rw [hafter, hbefore, hstatus, htags, h]

lemma SearchFilter.Same.collide {f g : SearchFilter} (h : f.Same g) : SearchCollide f g := by
  have hperm : ∀ {vs ws : Option (List String)},
      vs.map Multiset.ofList = ws.map Multiset.ofList → (vs.getD []).Perm (ws.getD []) := by
    intro vs ws h
    cases vs with
    | none =>
        cases ws with
        | none => exact .nil
        | some ws => cases h
    | some vs =>
        cases ws with
        | none => cases h
        | some ws => exact Multiset.coe_eq_coe.mp (Option.some.inj h)
  obtain ⟨hq, howner, htags, hstatus, hafter, hbefore⟩ := h
  refine ⟨hafter, hbefore, hperm hstatus, hperm htags, ?_⟩
  rw [hq, howner]
  exact .refl _

end Search

/-! ### The result -/

variable {σ κ : Type} [LinearOrder σ] [LinearOrder κ]

/-- **When a cursor is bound to its filter**: between two filters that are the same, and between two
filters that do not collide. -/
theorem cursor_bound_iff (H : Host σ κ) (hdigest : Function.Injective H.digest) :
    (∀ (f g : Option String × Option String) r limit rows,
      Bound (f = g) (listSessions H g.1 g.2 limit rows (some (listCursor H f.1 f.2 r)))
        ↔ f = g ∨ ¬ListCollide f g) ∧
    (∀ (f g : SearchFilter) r limit rows,
      Bound (f.Same g) (searchSessions H g limit rows (some (searchCursor H f r)))
        ↔ f.Same g ∨ ¬SearchCollide f g) ∧
    ∀ (f g : AuditFilter) sid sid' r limit rows,
      Bound (f.resolve sid = g.resolve sid')
          (listAudit H sid' g limit rows (some (auditCursor H (f.resolve sid) r)))
        ↔ f.resolve sid = g.resolve sid' ∨ ¬AuditCollide (f.resolve sid) (g.resolve sid') := by
  refine ⟨fun f g r limit rows => ?_, fun f g r limit rows => ?_, fun f g sid sid' r limit rows => ?_⟩
  · have hdecode : decodeCursor H (listCursor H f.1 f.2 r) (filterHash H g.1 g.2) = _ :=
      congrArg (Except.map _) (decode_encode "" (H.load r.submittedAt) (.str r.id) _ _)
    rw [← filterText_eq_iff]
    refine bound_iff (fun h => by rw [h]) (fun h => ?_) (fun h => ?_)
    · have hfh : filterHash H f.1 f.2 = filterHash H g.1 g.2 := congrArg H.digest h
      rw [if_pos hfh] at hdecode
      exact listing_accepted hdecode
    · have hfh : filterHash H f.1 f.2 ≠ filterHash H g.1 g.2 := fun hd => h (hdigest hd)
      rw [if_neg hfh] at hdecode
      exact listing_mismatched hdecode
  · have hdecode : decodeSearchCursor H (searchCursor H f r) (filterHashSearch H g) = _ :=
      congrArg (Except.map _) (decode_encode "search " (H.load r.submittedAt) (.str r.id) _ _)
    refine bound_iff SearchFilter.Same.collide (fun h => ?_) (fun h => ?_)
    · have hfh : filterHashSearch H f = filterHashSearch H g :=
        congrArg H.digest ((searchFilterText_eq_iff f g).mpr h)
      rw [if_pos hfh] at hdecode
      exact listing_accepted hdecode
    · have hfh : filterHashSearch H f ≠ filterHashSearch H g := fun hd =>
        h ((searchFilterText_eq_iff f g).mp (hdigest hd))
      rw [if_neg hfh] at hdecode
      exact listing_mismatched hdecode
  · have hdecode : decodeAuditCursor H (auditCursor H (f.resolve sid) r)
        (auditFilterHash H (g.resolve sid')) = _ :=
      congrArg (Except.bind · _) (decode_encode "audit " (H.load r.ts) (.scalar (.int r.id)) _ _)
    rw [← auditFilterText_eq_iff]
    refine bound_iff (fun h => by rw [h]) (fun h => ?_) (fun h => ?_)
    · have hfh : auditFilterHash H (f.resolve sid) = auditFilterHash H (g.resolve sid') :=
        congrArg H.digest h
      rw [if_pos hfh] at hdecode
      simp only [Except.bind, H.int_int] at hdecode
      exact listing_accepted hdecode
    · have hfh : auditFilterHash H (f.resolve sid) ≠ auditFilterHash H (g.resolve sid') :=
        fun hd => h (hdigest hd)
      rw [if_neg hfh] at hdecode
      exact listing_mismatched hdecode

/-- A session that was submitted in the sixth second. -/
def someSession : StoredSession (Fin 60) := ⟨"a", 5, "queued", none, [], .mapping []⟩

/-- A cursor of the queued sessions is bound to them, as far as the failed ones go. -/
theorem queued_bound : Bound ((some "queued", none) = ((some "failed", none) : _ × Option String))
    (listSessions (Host.plain .sqlite) (some "failed") none 1 []
      (some (listCursor (Host.plain .sqlite) (some "queued") none someSession))) := by
  refine ((cursor_bound_iff (Host.plain .sqlite) Function.injective_id).1 (some "queued", none)
    (some "failed", none) someSession 1 []).mpr (Or.inr ?_)
  rw [← filterText_eq_iff]
  decide

/-- A cursor for the status `a|b` and the tag `c` is accepted for the status `a` and the tag `b|c`:
it is not bound to its filter. -/
theorem bar_not_bound : ¬Bound ((some "a|b", some "c") = (some "a", some "b|c"))
    (listSessions (Host.plain .sqlite) (some "a") (some "b|c") 1 []
      (some (listCursor (Host.plain .sqlite) (some "a|b") (some "c") someSession))) := by
  rintro ⟨h, -⟩
  have hsame : (some "a|b", some "c") = (some "a", some "b|c") := h.mp ⟨([], none), rfl⟩
  exact absurd hsame (by decide)

end GgRelay.Listing
