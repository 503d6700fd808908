import GgRelay.Redaction.Coverage

/-!
How often a value has to be redacted until redaction changes nothing more.

* `Quieted` says of a text that no default pattern finds anything in it;
* `quieted_redactString`: two runs of `redact_string` leave such a text, whatever the string;
* `redactFrame_settles`: a frame that has been redacted twice has only such texts, and stays as it
  is. A hook's input is one: `HookRelay._emit` redacts it, and then `_persist_frame` does.
-/

namespace GgRelay

namespace Coverage

open Regex Substitute

variable {W : WordClass}

/-! ### Behind a match of the first pattern -/

/-- Of the character before, a pattern sees only whether it is a word character. -/
lemma find_congr_prev (P : SecretPattern) {prev prev' : Option Char}
    (h : prev.any W.isWord = prev'.any W.isWord) (cs : List Char) :
    P.find W prev cs = P.find W prev' cs := by
  rw [SecretPattern.find_eq, SecretPattern.find_eq, SecretPattern.wordBoundary,
    SecretPattern.wordBoundary, h]

/-- A match of the first pattern ends with a quote, or in front of a character that is no word
character. -/
lemma end_of_assignment {prev : Option Char} {cs : List Char} {k : ℕ}
    (h : (assignmentPattern W).find W prev cs = k + 1) :
    (∃ c, cs[k]? = some c ∧ ['\'', '"'].contains c) ∨ ∀ c ∈ cs[k + 1]?, ¬W.isWord c := by
  rw [SecretPattern.find_eq] at h
  split_ifs at h
  cases hrow : ((assignmentPattern W).heads.map (assignmentPattern W).rowOf).findSome?
      fun row => matchItems row cs with
  | none => simp [hrow] at h
  | some n =>
      rw [hrow, Option.getD_some] at h
      obtain ⟨row, hmem, hmatch⟩ := List.exists_of_findSome?_eq_some hrow
      obtain ⟨head, -, rfl⟩ := List.mem_map.mp hmem
      -- the rest of the value, and the quote
      have hsplit : (assignmentPattern W).rowOf head
          = (head ++ (assignmentPattern W).lead
              ++ [.one fun c => W.isWord c || ['-', '.', '+', '/'].contains c])
            ++ [.many fun c => W.isWord c || ['-', '.', '+', '/'].contains c,
              .opt (['\'', '"'].contains ·)] := by
        simp [SecretPattern.rowOf, assignmentPattern, some1]
      rw [hsplit, matchItems_append] at hmatch
      obtain ⟨i, -, hmatch⟩ := Option.bind_eq_some_iff.mp hmatch
      obtain ⟨j, hj, hn⟩ := Option.map_eq_some_iff.mp hmatch
      rcases matchItems_many_opt hj with ⟨l, rfl, c, hc, hquote⟩ | hnext
      · refine Or.inl ⟨c, ?_, hquote⟩
        obtain rfl : k = i + l := by omega
        rwa [List.getElem?_drop] at hc
      · refine Or.inr fun c hc hword => ?_
        have hend : i + j = k + 1 := by omega
        rw [List.getElem?_drop, hend] at hnext
        exact hnext c hc (by simp [hword])

/-- In front of what is no word character the first pattern finds nothing behind a mask. -/
lemma find_assignment_of_not_word {cs : List Char} (h : ∀ c ∈ cs.head?, ¬W.isWord c) :
    (assignmentPattern W).find W (some '*') cs = 0 := by
  have hnext : cs.head?.any W.isWord = false := by
    cases hc : cs.head? with
    | none => rfl
    | some c => simpa using h c hc
  have hboundary : SecretPattern.wordBoundary W (some '*') cs.head? = false := by
    rw [SecretPattern.wordBoundary, hnext, Option.any_some, isWord_bar]
    rfl
  rw [SecretPattern.find_eq, hboundary]
  rfl

/-- The first pattern does not tell a mask from the match it stands for. -/
lemma seamless_assignmentPattern : Seamless ((assignmentPattern W).find W) '*' := by
  intro prev cs k h
  rcases end_of_assignment h with ⟨c, hc, hquote⟩ | hnext
  · have hword : W.isWord c = false := by
      have hcases : c = '\'' ∨ c = '"' := by simpa using hquote
      rcases hcases with rfl | rfl
      · exact W.isWord_ascii '\'' (by decide)
      · exact W.isWord_ascii '"' (by decide)
    refine (find_congr_prev _ ?_ _).le
    rw [hc, Option.any_some, Option.any_some, hword, isWord_bar]
  · rw [find_assignment_of_not_word (by rwa [List.head?_drop])]
    exact Nat.zero_le _

/-! ### Strings -/

/-- An engine with the default patterns; `keys` are its sensitive keys. -/
def defaultPatterned (W : WordClass) (lower : String → String) (keys : List String) :
    RedactionEngine :=
  .new lower ((DEFAULT_PATTERNS W).map fun P => P.sub W) keys

/-- No default pattern finds anything in the text. -/
def Quieted (W : WordClass) (t : String) : Prop :=
  ∀ P ∈ DEFAULT_PATTERNS W, finditer (P.find W) none 0 0 t.toList = []

lemma quieted_of_sub {t : String} (h : ∀ P ∈ DEFAULT_PATTERNS W, P.sub W t = t) :
    Quieted W t := by
  intro P hP
  have hsub := congrArg String.toList (h P hP)
  rw [SecretPattern.sub, String.toList_ofList] at hsub
  exact finditer_eq_nil (masks_default P hP) hsub

/-- The mask itself is such a text. -/
lemma sub_REDACTED {P : SecretPattern} (hP : P ∈ DEFAULT_PATTERNS W) :
    P.sub W REDACTED = REDACTED := by
  have hmask := sub_placedMask (masks_default P hP) List.suffix_rfl none []
  rw [List.append_nil, sub, List.append_nil] at hmask
  have hfst := congrArg (List.map Prod.fst) hmask
  rw [map_sub, placedMask_fst] at hfst
  rw [SecretPattern.sub, hfst, String.ofList_toList]

/-- After two runs no pattern changes anything. -/
lemma sub_redactString (lower : String → String) (keys : List String) (s : String)
    {P : SecretPattern} (hP : P ∈ DEFAULT_PATTERNS W) :
    P.sub W ((defaultPatterned W lower keys).redactString
        ((defaultPatterned W lower keys).redactString s))
      = (defaultPatterned W lower keys).redactString
          ((defaultPatterned W lower keys).redactString s) := by
  obtain ⟨covered, begins, hb, hsilent, hrun⟩ := foldl_sub_settles
    ((assignmentPattern W).find W) (finders W).tail
    masks_finders seamless_assignmentPattern blind_finders s.toList
  have htwice : (defaultPatterned W lower keys).redactString
      ((defaultPatterned W lower keys).redactString s)
        = String.ofList ((maskedText covered begins REDACTED.toList 0 s.toList).map Prod.fst) := by
    have hstep : ∀ t, (defaultPatterned W lower keys).redactString t = String.ofList
        ((finders W).foldl (fun t find => Substitute.sub find id REDACTED.toList none 0 t)
          t.toList) :=
      foldl_sub (DEFAULT_PATTERNS W)
    rw [hstep, hstep, String.toList_ofList, ← hrun, ← finders_eq, map_foldl_sub, map_foldl_sub,
      maskedText_none]
  rw [htwice, SecretPattern.sub, String.toList_ofList]
  have hquiet := sub_of_not_found (masks_default P hP) hb
    (hsilent (P.find W) (List.mem_map_of_mem (f := fun P => P.find W) hP))
  have hfst := congrArg (List.map Prod.fst) hquiet
  rw [map_sub, placedMask_fst] at hfst
  rw [hfst]

lemma quieted_redactString (lower : String → String) (keys : List String) (s : String) :
    Quieted W ((defaultPatterned W lower keys).redactString
      ((defaultPatterned W lower keys).redactString s)) :=
  quieted_of_sub fun _ hP => sub_redactString lower keys s hP

lemma redactString_of_sub (lower : String → String) (keys : List String) {t : String}
    (h : ∀ P ∈ DEFAULT_PATTERNS W, P.sub W t = t) :
    (defaultPatterned W lower keys).redactString t = t := by
  suffices hfold : ∀ Ps ⊆ DEFAULT_PATTERNS W,
      (Ps.map fun P => P.sub W).foldl (fun out pattern => pattern out) t = t from
    hfold _ (List.Subset.refl _)
  intro Ps hPs
  induction Ps with
  | nil => rfl
  | cons P Ps ih =>
      obtain ⟨hP, hPs⟩ := List.cons_subset.mp hPs
      rw [List.map_cons, List.foldl_cons, h P hP]
      exact ih hPs

end Coverage

/-! ### Values -/

namespace Json

mutual

/-- The strings in a value. -/
def texts : Json → List String
  | .scalar _ => []
  | .str s => [s]
  | .list vs | .tuple vs => textsOfMembers vs
  | .mapping d => textsOfItems d

def textsOfMembers : List Json → List String
  | [] => []
  | v :: vs => texts v ++ textsOfMembers vs

def textsOfItems : List (String × Json) → List String
  | [] => []
  | (_, v) :: d => texts v ++ textsOfItems d

end

lemma mem_textsOfMembers {t : String} {vs : List Json} :
    t ∈ textsOfMembers vs ↔ ∃ v ∈ vs, t ∈ v.texts := by
  induction vs with
  | nil => simp [textsOfMembers]
  | cons v vs ih => simp [textsOfMembers, ih]

lemma mem_textsOfItems {t : String} {d : List (String × Json)} :
    t ∈ textsOfItems d ↔ ∃ kv ∈ d, t ∈ kv.2.texts := by
  induction d with
  | nil => simp [textsOfItems]
  | cons kv d ih => simp [textsOfItems, ih]

end Json

namespace Coverage

section Values

variable {W : WordClass} (lower : String → String) (keys : List String)

/-- The value is as two runs leave it. -/
def Settled (E : RedactionEngine) (W : WordClass) (v : Json) : Prop :=
  (∀ t ∈ v.texts, Quieted W t) ∧ E.redactValue v = v

lemma settled_mask : Settled (defaultPatterned W lower keys) W (.str REDACTED) := by
  refine ⟨fun t ht => ?_, ?_⟩
  · obtain rfl := List.mem_singleton.mp ht
    exact quieted_of_sub fun _ hP => sub_REDACTED hP
  · rw [RedactionEngine.redactValue, redactString_of_sub lower keys fun _ hP => sub_REDACTED hP]

lemma settled_list {E : RedactionEngine} {vs : List Json} (h : ∀ v ∈ vs, Settled E W v) :
    Settled E W (.list vs) := by
  refine ⟨fun t ht => ?_, ?_⟩
  · obtain ⟨v, hv, ht⟩ := Json.mem_textsOfMembers.mp ht
    exact (h v hv).1 t ht
  · rw [RedactionEngine.redactValue, RedactionEngine.redactList_eq_map,
      List.map_congr_left fun v hv => (h v hv).2, List.map_id']

/-- A mapping is settled if its values are, and masked under the sensitive keys. -/
lemma settled_mapping {E : RedactionEngine} {d : List (String × Json)}
    (h : ∀ kv ∈ d, Settled E W kv.2 ∧ (E.sensitive kv.1 → kv.2 = .str REDACTED)) :
    Settled E W (.mapping d) := by
  refine ⟨fun t ht => ?_, ?_⟩
  · obtain ⟨kv, hkv, ht⟩ := Json.mem_textsOfItems.mp ht
    exact (h kv hkv).1.1 t ht
  · have hitem : ∀ kv ∈ d, (kv.1, E.redactItem kv) = kv := by
      intro kv hkv
      obtain ⟨hsettled, hmask⟩ := h kv hkv
      rw [RedactionEngine.redactItem]
      split_ifs with hkey
      · rw [← hmask hkey]
      · rw [hsettled.2]
    rw [RedactionEngine.redactValue, RedactionEngine.redactDict_eq_map,
      List.map_congr_left hitem, List.map_id']

/-- Two runs settle a value. -/
lemma settled_redactValue (v : Json) :
    Settled (defaultPatterned W lower keys) W ((defaultPatterned W lower keys).redactValue
      ((defaultPatterned W lower keys).redactValue v)) := by
  induction v using Json.rec_members with
  | scalar a => exact ⟨fun t ht => absurd ht List.not_mem_nil, rfl⟩
  | str s =>
      refine ⟨fun t ht => ?_, ?_⟩
      · obtain rfl := List.mem_singleton.mp ht
        exact quieted_redactString lower keys s
      · simp only [RedactionEngine.redactValue]
        rw [redactString_of_sub lower keys fun _ hP => sub_redactString lower keys s hP]
  | list vs ih | tuple vs ih =>
      simp only [RedactionEngine.redactValue, RedactionEngine.redactList_eq_map, List.map_map]
      refine settled_list fun w hw => ?_
      obtain ⟨v, hv, rfl⟩ := List.mem_map.mp hw
      exact ih v hv
  | mapping d ih =>
      simp only [RedactionEngine.redactValue, RedactionEngine.redactDict_eq_map, List.map_map]
      refine settled_mapping fun kw hkw => ?_
      obtain ⟨kv, hkv, rfl⟩ := List.mem_map.mp hkw
      simp only [Function.comp_apply, RedactionEngine.redactItem]
      split_ifs with hkey
      · exact ⟨settled_mask lower keys, fun _ => rfl⟩
      · exact ⟨ih kv hkv, fun h => absurd h hkey⟩

/-- **Two redactions settle a frame**: whatever the frame and the sensitive keys, after two of them
no default pattern finds anything in any string of the frame, and a third one changes nothing. -/
theorem redactFrame_settles (W : WordClass) (lower : String → String) (keys : List String)
    (frame : List (String × Json)) :
    let redact := (defaultPatterned W lower keys).redactFrame
    (∀ t ∈ (Json.mapping (redact (redact frame))).texts, Quieted W t) ∧
      redact (redact (redact frame)) = redact (redact frame) := by
  obtain ⟨htexts, hagain⟩ := settled_redactValue (W := W) lower keys (.mapping frame)
  exact ⟨htexts, Json.mapping.inj hagain⟩

end Values

end Coverage

end GgRelay
