import GgRelay.Redaction.Patterns

/-!
What `redact_string` with the default patterns leaves of the secrets of a string.

* `traced` is the run in which each character keeps its place, `Survives` says of a place that its
  character is still there;
* `standingPlaces` are the places of the matches of the string, each as far as the matches of the
  patterns before it leave it one;
* `covers_iff` says when no secret survives and a second run changes nothing,
  `bearer_behind_keyword_survives` is a secret that an earlier mask shields.
-/

namespace GgRelay

namespace Coverage

open Substitute

variable (W : WordClass)

/-- The characters of a string, with their places. -/
def place (cs : List Char) : List (Placed Char) := cs.zipIdx.map fun c => (c.1, some c.2)

/-- What `find` and `sub` of the default patterns are. -/
def finders : List (Finder Char) := (DEFAULT_PATTERNS W).map fun P => P.find W

/-- `redact_string`, in which each character keeps its place. -/
def traced (s : String) : List (Placed Char) :=
  (finders W).foldl (fun t find => Substitute.sub find Prod.fst (placedMask REDACTED.toList) none 0 t)
    (place s.toList)

/-- The character at a place of the string is still there in the end. -/
def Survives (s : String) (q : ℕ) : Prop := ∃ c, (c, some q) ∈ traced W s

/-- No character of the secret of a match of a default pattern survives. -/
def LeavesNoSecret (s : String) : Prop :=
  ∀ P ∈ DEFAULT_PATTERNS W, ∀ m ∈ P.secrets W s.toList, ∀ q ∈ List.range' m.1 m.2,
    ¬Survives W s q

/-- The places of the standing matches. -/
def standingPlaces (s : String) : ℕ → Bool := cover '*' s.toList (finders W) fun _ => false

/-- No pattern has a match that starts in what the matches of the patterns before it leave of one of
its own. -/
def Undisturbed (s : String) : Prop := Quiet '*' s.toList (finders W) fun _ => false

/-- Every secret is in standing matches. -/
def SecretsStand (s : String) : Prop :=
  ∀ P ∈ DEFAULT_PATTERNS W, ∀ m ∈ P.secrets W s.toList, ∀ q ∈ List.range' m.1 m.2,
    standingPlaces W s q

/-- Right behind a standing match, and in front of the next one, is an assignment that did not start
at a word boundary. -/
def Exposed (s : String) : Prop :=
  ∃ p < s.toList.length, 0 < p ∧ standingPlaces W s (p - 1) ∧
    0 < (assignmentPattern W).find W (some '*')
      (uncovered (standingPlaces W s) p (s.toList.drop p))

variable {W} {s : String}

/-! ### The traced run -/

lemma place_eq (begins : ℕ → Bool) (mask cs : List Char) :
    place cs = maskedText (fun _ => false) begins mask 0 cs := by
  suffices h : ∀ p, (cs.zipIdx p).map (fun c => (c.1, some c.2))
      = maskedText (fun _ => false) begins mask p cs from h 0
  intro p
  induction cs generalizing p with
  | nil => rfl
  | cons c cs ih => simp [List.zipIdx_cons, maskedText, ih]

lemma foldl_sub (patterns : List SecretPattern) (s : String) :
    (patterns.map fun P => P.sub W).foldl (fun out pattern => pattern out) s
      = String.ofList ((patterns.map fun P => P.find W).foldl
          (fun t find => Substitute.sub find id REDACTED.toList none 0 t) s.toList) := by
  induction patterns generalizing s with
  | nil => simp
  | cons P patterns ih =>
      simp only [List.map_cons, List.foldl_cons]
      rw [ih, SecretPattern.sub, String.toList_ofList]

lemma redactString_eq (lower : String → String) (s : String) :
    (defaultEngine W lower).redactString s
      = String.ofList ((finders W).foldl
          (fun t find => Substitute.sub find id REDACTED.toList none 0 t) s.toList) :=
  foldl_sub (DEFAULT_PATTERNS W) s

/-- The traced run is the run. -/
theorem traced_fst (lower : String → String) (s : String) :
    String.ofList ((traced W s).map Prod.fst) = (defaultEngine W lower).redactString s := by
  rw [traced, map_foldl_sub, place_eq (fun _ => false) [], maskedText_none, redactString_eq]

lemma masks_finders : ∀ find ∈ finders W, Masks find '*' REDACTED.toList := by
  intro find hfind
  obtain ⟨P, hP, rfl⟩ := List.mem_map.mp hfind
  exact masks_default P hP

/-- The patterns behind the first one do not look back. -/
lemma blind_finders : ∀ find ∈ (finders W).tail, Blind find := by
  simp only [finders, DEFAULT_PATTERNS, List.map_cons, List.map_nil, List.tail_cons,
    List.forall_mem_cons]
  exact ⟨SecretPattern.blind_find rfl, SecretPattern.blind_find rfl, SecretPattern.blind_find rfl,
    SecretPattern.blind_find rfl, by simp⟩

lemma finders_eq : finders W = (assignmentPattern W).find W :: (finders W).tail := rfl

/-- The places of the matches of the first pattern. -/
def assignmentPlaces (W : WordClass) (s : String) : ℕ → Bool :=
  coverNext ((assignmentPattern W).find W) '*' s.toList fun _ => false

lemma standingPlaces_eq :
    standingPlaces W s = cover '*' s.toList (finders W).tail (assignmentPlaces W s) := rfl

/-- What is left in the end is what is not in a standing match. -/
lemma traced_eq (h : Undisturbed W s) :
    ∃ begins, Begins (standingPlaces W s) begins ∧
      traced W s = maskedText (standingPlaces W s) begins REDACTED.toList 0 s.toList := by
  have hmasks := masks_finders (W := W)
  have hstep := sub_standing (hmasks _ List.mem_cons_self) begins_none
    (Or.inr fun p => by simp) h.1
  obtain ⟨begins, hbegins, hrun⟩ := foldl_sub_standing
    (fun f hf => hmasks f (List.mem_of_mem_tail hf)) blind_finders begins_none.next h.2
  refine ⟨begins, hbegins, ?_⟩
  rw [traced, place_eq (fun _ => false) REDACTED.toList, finders_eq, List.foldl_cons]
  exact (congrArg (fun t => (finders W).tail.foldl _ t) hstep).trans hrun

lemma survives_iff (h : Undisturbed W s) {q : ℕ} :
    Survives W s q ↔ q < s.toList.length ∧ ¬standingPlaces W s q := by
  obtain ⟨begins, -, htraced⟩ := traced_eq h
  rw [Survives, htraced, mem_maskedText]
  simp

/-! ### The secrets -/

/-- The secret of a match is in the text. -/
lemma hit_le {P : SecretPattern} {prev : Option Char} {cs : List Char} {hit : Hit}
    (h : P.hit W prev cs = some hit) : hit.lead + hit.secret ≤ cs.length := by
  rw [SecretPattern.hit] at h
  split_ifs at h
  obtain ⟨head, -, hhead⟩ := List.exists_of_findSome?_eq_some h
  obtain ⟨n, hn, hhead⟩ := Option.bind_eq_some_iff.mp hhead
  obtain ⟨k, hk, hhead⟩ := Option.bind_eq_some_iff.mp hhead
  obtain ⟨t, -, hhead⟩ := Option.bind_eq_some_iff.mp hhead
  obtain rfl := Option.some.inj hhead
  have hlead := Regex.le_length_of_matchItems hn
  have hsecret := Regex.le_length_of_matchItems hk
  rw [List.length_drop] at hsecret
  simp only
  omega

lemma lt_length_of_mem_secrets {P : SecretPattern} {cs : List Char} {m : ℕ × ℕ} {q : ℕ}
    (hm : m ∈ P.secrets W cs) (hq : q ∈ List.range' m.1 m.2) : q < cs.length := by
  obtain ⟨⟨a, n⟩, -, hmatch⟩ := List.mem_filterMap.mp hm
  obtain ⟨hit, hhit, rfl⟩ := Option.map_eq_some_iff.mp hmatch
  have hend := hit_le hhit
  rw [List.length_drop] at hend
  rw [List.mem_range'_1] at hq
  omega

lemma leavesNoSecret_iff (h : Undisturbed W s) : LeavesNoSecret W s ↔ SecretsStand W s := by
  refine forall₂_congr fun P _ => forall₂_congr fun m hm => forall₂_congr fun q hq => ?_
  have hlength := lt_length_of_mem_secrets hm hq
  rw [survives_iff h]
  simp [hlength]

/-! ### The second run -/

/-- In what is left the first pattern finds something behind a mask only. -/
lemma exposed_iff :
    Exposed W s ↔
      ¬∀ p, found ((assignmentPattern W).find W) '*' (standingPlaces W s) s.toList p = 0 := by
  have hfind := masks_finders (W := W) _ List.mem_cons_self
  rw [not_forall]
  constructor
  · rintro ⟨p, hlength, hpos, hbefore, hmatch⟩
    refine ⟨p, ?_⟩
    obtain ⟨p, rfl⟩ := Nat.exists_eq_succ_of_ne_zero hpos.ne'
    rw [found, before, if_pos (by simpa using hbefore)]
    exact hmatch.ne'
  · rintro ⟨p, hp⟩
    have hlength : p < s.toList.length := by
      by_contra hlength
      exact hp (found_of_length_le hfind (not_lt.mp hlength))
    have hcovered : ¬standingPlaces W s p := fun h => hp (found_of_covered hfind h)
    -- with the same character before, there would be a match of the string
    have hbefore : ∃ p', p = p' + 1 ∧ standingPlaces W s p' := by
      by_contra hnone
      have hprev : before '*' (standingPlaces W s) s.toList p
          = before '*' (fun _ => false) s.toList p := by
        cases p with
        | zero => rfl
        | succ p => simp_all [before]
      have hle : found ((assignmentPattern W).find W) '*' (standingPlaces W s) s.toList p
          ≤ found ((assignmentPattern W).find W) '*' (fun _ => false) s.toList p :=
        found_anti hfind (fun q h => absurd h (by simp)) p (Or.inr hprev)
      have hplace : assignmentPlaces W s p :=
        coverNext_of_found hfind (Nat.ne_of_gt ((Nat.pos_of_ne_zero hp).trans_le hle))
      exact hcovered (cover_of_covered (finders W).tail hplace)
    obtain ⟨p, rfl, hcov⟩ := hbefore
    refine ⟨p + 1, hlength, Nat.succ_pos p, hcov, Nat.pos_of_ne_zero ?_⟩
    rwa [found, before, if_pos hcov] at hp

/-- A second run changes nothing if the patterns find nothing in what the first one leaves. -/
lemma idempotent_iff (lower : String → String) (h : Undisturbed W s) :
    (defaultEngine W lower).redactString ((defaultEngine W lower).redactString s)
        = (defaultEngine W lower).redactString s ↔ ¬Exposed W s := by
  obtain ⟨begins, hbegins, htraced⟩ := traced_eq h
  have hrest : ∀ find ∈ (finders W).tail, ∀ p,
      found find '*' (standingPlaces W s) s.toList p = 0 := fun find hfind =>
    found_cover (fun f hf => masks_finders f (List.mem_of_mem_tail hf)) blind_finders h.2 hfind
  have hagain : _ = (maskedText (standingPlaces W s) begins REDACTED.toList 0 s.toList).map
      Prod.fst ↔ _ := foldl_sub_eq_self_iff (masks_finders (W := W)) hbegins
  rw [← htraced, finders_eq, List.forall_mem_cons, and_iff_left hrest] at hagain
  have htwice : (defaultEngine W lower).redactString ((defaultEngine W lower).redactString s)
      = String.ofList (((finders W).foldl (fun t find => Substitute.sub find Prod.fst
          (placedMask REDACTED.toList) none 0 t) (traced W s)).map Prod.fst) := by
    rw [← traced_fst lower s, redactString_eq, String.toList_ofList, map_foldl_sub]
  rw [exposed_iff, not_not, ← hagain, htwice, ← traced_fst lower s, String.ofList_inj]
  rfl

/-- No secret survives and a second run changes nothing, for a string whose matches are not
disturbed by one another: if and only if every secret is in standing matches, and no assignment
starts right behind one. -/
theorem covers_iff (W : WordClass) (lower : String → String) (s : String)
    (h : Undisturbed W s) :
    LeavesNoSecret W s ∧
        (defaultEngine W lower).redactString ((defaultEngine W lower).redactString s)
          = (defaultEngine W lower).redactString s ↔
      SecretsStand W s ∧ ¬Exposed W s :=
  and_congr (leavesNoSecret_iff h) (idempotent_iff lower h)

/-! ### Matches that do not overlap -/

/-- No place is in the matches of two patterns. -/
def Apart (W : WordClass) (s : String) : Prop :=
  (finders W).Pairwise fun find find' =>
    ∀ q, ¬(Matched find s.toList q ∧ Matched find' s.toList q)

lemma standing_of_apart (h : Apart W s) :
    Undisturbed W s ∧
      ∀ q, standingPlaces W s q ↔ ∃ find ∈ finders W, Matched find s.toList q := by
  have hmasks := masks_finders (W := W)
  obtain ⟨hpair, hrest⟩ := List.pairwise_cons.mp h
  obtain ⟨hnext, hzero⟩ : (∀ q, assignmentPlaces W s q ↔ _) ∧ _ :=
    coverNext_of_apart (hmasks _ List.mem_cons_self) (Or.inr fun p => Bool.false_ne_true)
      fun q _ => Bool.false_ne_true
  obtain ⟨hquiet, hcover⟩ : Quiet '*' s.toList (finders W).tail (assignmentPlaces W s) ∧ _ :=
    quiet_of_apart (fun f hf => hmasks f (List.mem_of_mem_tail hf)) blind_finders
      (fun f hf q hq hcovered => hpair f hf q
        ⟨((hnext q).mp hcovered).resolve_left Bool.false_ne_true, hq⟩) hrest
  refine ⟨⟨fun p _ => hzero p, hquiet⟩, fun q => ?_⟩
  rw [standingPlaces_eq, hcover, finders_eq, List.exists_mem_cons_iff, hnext]
  simp

/-- Where the matches of different patterns do not overlap, the characters that survive are those in
no match. -/
theorem survives_iff_of_apart (W : WordClass) (s : String) (h : Apart W s) (q : ℕ) :
    Survives W s q ↔
      q < s.toList.length ∧ ∀ P ∈ DEFAULT_PATTERNS W, ¬Matched (P.find W) s.toList q := by
  obtain ⟨hundisturbed, hstanding⟩ := standing_of_apart h
  rw [survives_iff hundisturbed, hstanding]
  simp [finders]

/-! ### An undisturbed string, and two that are not covered -/

instance (s : String) : Decidable (Undisturbed W s) :=
  inferInstanceAs (Decidable (Quiet _ _ _ _))

instance (s : String) : Decidable (SecretsStand W s) :=
  inferInstanceAs (Decidable (∀ P ∈ DEFAULT_PATTERNS W, ∀ m ∈ P.secrets W s.toList,
    ∀ q ∈ List.range' m.1 m.2, standingPlaces W s q))

instance (s : String) : Decidable (Exposed W s) :=
  inferInstanceAs (Decidable (∃ p < s.toList.length, _))

/-- The word characters of ASCII. -/
def asciiWords : WordClass := ⟨fun c => c.isAlphanum || c == '_', fun _ _ => rfl⟩

/-- The matches of one pattern are all there are. -/
lemma apart_of_matches {W : WordClass} {s : String} (matchesOf : List (List (ℕ × ℕ)))
    (h : (finders W).map (fun find => finditer find none 0 0 s.toList) = matchesOf)
    (hapart : matchesOf.Pairwise fun ms ms' =>
      ∀ m ∈ ms, ∀ m' ∈ ms', m.1 + m.2 ≤ m'.1 ∨ m'.1 + m'.2 ≤ m.1) : Apart W s := by
  subst h
  refine (List.pairwise_map.mp hapart).imp fun hdisjoint q => ?_
  rintro ⟨⟨m, hm, hle, hlt⟩, m', hm', hle', hlt'⟩
  rcases hdisjoint m hm m' hm' with hend | hend <;> omega

/-- Of an assignment and a bearer token next to it, the blank between them survives. -/
theorem survives_between_two_secrets :
    Apart asciiWords "token=abc Bearer xyz" ∧
      (Survives asciiWords "token=abc Bearer xyz" 9 ↔
        9 < "token=abc Bearer xyz".toList.length ∧ ∀ P ∈ DEFAULT_PATTERNS asciiWords,
          ¬Matched (P.find asciiWords) "token=abc Bearer xyz".toList 9) := by
  have hapart : Apart asciiWords "token=abc Bearer xyz" :=
    apart_of_matches [[(0, 9)], [], [(10, 10)], [], []] (by decide) (by decide)
  exact ⟨hapart, survives_iff_of_apart asciiWords "token=abc Bearer xyz" hapart 9⟩
/-- The match of the first pattern takes the secret of the match of the third one along. -/
theorem covers_assignment_behind_bearer :
    LeavesNoSecret asciiWords "bearer token=a" ∧
      (defaultEngine asciiWords String.toLower).redactString
          ((defaultEngine asciiWords String.toLower).redactString "bearer token=a")
        = (defaultEngine asciiWords String.toLower).redactString "bearer token=a" :=
  (covers_iff asciiWords String.toLower "bearer token=a" (by decide +kernel)).mpr
    ⟨by decide +kernel, by decide +kernel⟩

/-- The mask of `token: Bearer` shields the token behind it; and behind the mask of an AWS key an
assignment is found that was not one before. -/
theorem bearer_behind_keyword_survives :
    ¬LeavesNoSecret asciiWords "token: Bearer abc123" ∧
      (defaultEngine asciiWords String.toLower).redactString
          ((defaultEngine asciiWords String.toLower).redactString "AKIAIOSFODNN7EXAMPLEtoken=abc")
        ≠ (defaultEngine asciiWords String.toLower).redactString "AKIAIOSFODNN7EXAMPLEtoken=abc" := by
  refine ⟨fun h => ?_, by decide +kernel⟩
  have hsecret : (14, 6) ∈ (bearerPattern asciiWords).secrets asciiWords
      "token: Bearer abc123".toList := by decide
  refine h (bearerPattern asciiWords) (by simp [DEFAULT_PATTERNS]) (14, 6) hsecret 14 (by decide) ?_
  exact ⟨'a', by decide⟩

end Coverage

end GgRelay
