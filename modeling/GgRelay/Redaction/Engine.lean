import GgRelay.Lib.Json

/-!
The redaction engine (`redaction/engine.py`) and the one `api/main.py` builds.

* `RedactionEngine` holds the patterns and the normalised key set; `redactString`, `redactValue`,
  `redactDict` and `redactFrame` are its methods;
* `lifespanRedactor` is the engine of the application: it reads the default keys off an attribute
  that the class does not have;
* `MaskedBy` says when a value is a faithful redaction of another for a set of keys, and
  `redactFrame_masks_iff` when the application's engine achieves it.
-/

namespace GgRelay

/-- `REDACTED`. -/
def REDACTED : String := "***REDACTED***"

/-- `DEFAULT_SENSITIVE_KEYS`. -/
def DEFAULT_SENSITIVE_KEYS : List String :=
  ["api_key", "apikey", "api-key", "token", "secret", "password", "pass", "passwd",
    "credentials", "auth", "authorization", "anthropic_api_key", "openai_api_key", "x-api-key"]

/-- A `RedactionEngine`.  A pattern is what its `sub(REDACTED, ·)` does to a string, and `lower`
is `str.lower`. -/
structure RedactionEngine where
  lower : String → String
  patterns : List (String → String)
  keys : Finset String

namespace RedactionEngine

/-- `RedactionEngine.__init__`: the keys are normalised once. -/
def new (lower : String → String) (patterns : List (String → String))
    (sensitiveKeys : List String) : RedactionEngine where
  lower := lower
  patterns := patterns
  keys := (sensitiveKeys.map lower).toFinset

variable (E : RedactionEngine)

/-- The key is masked whatever its value: `k.lower() in self._keys`. -/
def sensitive (k : String) : Bool := E.lower k ∈ E.keys

lemma sensitive_new {lower : String → String} {patterns : List (String → String)}
    {ks : List String} {k : String} :
    (new lower patterns ks).sensitive k = true ↔ ∃ k' ∈ ks, lower k' = lower k := by
  simp [sensitive, new]

/-- Keys are told apart up to their case only. -/
lemma sensitive_congr {k k' : String} (h : E.lower k = E.lower k') :
    E.sensitive k = E.sensitive k' := by
  rw [sensitive, sensitive, h]

/-- `redact_string`: every pattern in turn. -/
def redactString (s : String) : String := E.patterns.foldl (fun out pattern => pattern out) s

mutual

/-- `redact_value`. -/
def redactValue : Json → Json
  | .str s => .str (E.redactString s)
  | .mapping d => .mapping (redactDict d)
  | .list vs => .list (redactList vs)
  -- tuples become lists
  | .tuple vs => .list (redactList vs)
  | .scalar a => .scalar a

/-- `redact_value` on the members of an array. -/
def redactList : List Json → List Json
  | [] => []
  | v :: vs => redactValue v :: redactList vs

/-- `redact_dict`. -/
def redactDict : List (String × Json) → List (String × Json)
  | [] => []
  | (k, v) :: d => (k, if E.sensitive k then .str REDACTED else redactValue v) :: redactDict d

end

/-- `redact_frame`. -/
def redactFrame (frame : List (String × Json)) : List (String × Json) := E.redactDict frame

/-- The value an item of a mapping is redacted to. -/
def redactItem (kv : String × Json) : Json :=
  if E.sensitive kv.1 then .str REDACTED else E.redactValue kv.2

lemma redactList_eq_map (vs : List Json) : E.redactList vs = vs.map E.redactValue := by
  induction vs with
  | nil => rfl
  | cons v vs ih => rw [redactList, ih, List.map_cons]

lemma redactDict_eq_map (d : List (String × Json)) :
    E.redactDict d = d.map fun kv => (kv.1, E.redactItem kv) := by
  induction d with
  | nil => rfl
  | cons kv d ih => rw [redactDict, ih, List.map_cons, redactItem]

end RedactionEngine

/-- The redactor of the application.  `getattr(RedactionEngine, "_keys", [])` is `[]`: `_keys` is
an attribute of the instances. -/
def lifespanRedactor (lower : String → String) (patterns : List (String → String))
    (redactionKeys : List String) : RedactionEngine :=
  .new lower patterns ([] ++ redactionKeys ++ ["api_key", "token", "secret", "password",
    "credentials"])

/-! ### What a redaction should be -/

/-- The key is one of `ks`, up to its case. -/
def namedBy (lower : String → String) (ks : List String) (k : String) : Bool :=
  lower k ∈ ks.map lower

mutual

/-- `w` is `v` with the mask in place of every value under a key of `S`, and with the same keys,
lengths and scalars elsewhere; strings may be rewritten. -/
def MaskedBy (S : String → Bool) : Json → Json → Prop
  | .scalar a, w => w = .scalar a
  | .str _, w => ∃ t, w = .str t
  | .list vs, w => ∃ ws, w = .list ws ∧ MembersMaskedBy S vs ws
  | .tuple vs, w => ∃ ws, w = .list ws ∧ MembersMaskedBy S vs ws
  | .mapping d, w => ∃ e, w = .mapping e ∧ ItemsMaskedBy S d e

def MembersMaskedBy (S : String → Bool) : List Json → List Json → Prop
  | [], ws => ws = []
  | v :: vs, ws => ∃ w ws', ws = w :: ws' ∧ MaskedBy S v w ∧ MembersMaskedBy S vs ws'

def ItemsMaskedBy (S : String → Bool) : List (String × Json) → List (String × Json) → Prop
  | [], e => e = []
  | (k, v) :: d, e => ∃ w e', e = (k, w) :: e' ∧
      (if S k then w = .str REDACTED else MaskedBy S v w) ∧ ItemsMaskedBy S d e'

end

mutual

/-- The value has nothing for the engine to miss: a value under a key of `S` is under a key of
the engine, or is a string that the patterns mask from end to end. -/
def Covered (E : RedactionEngine) (S : String → Bool) : Json → Prop
  | .scalar _ => True
  | .str _ => True
  | .list vs => MembersCovered E S vs
  | .tuple vs => MembersCovered E S vs
  | .mapping d => ItemsCovered E S d

def MembersCovered (E : RedactionEngine) (S : String → Bool) : List Json → Prop
  | [] => True
  | v :: vs => Covered E S v ∧ MembersCovered E S vs

def ItemsCovered (E : RedactionEngine) (S : String → Bool) : List (String × Json) → Prop
  | [] => True
  | (k, v) :: d =>
      (if S k then E.sensitive k = true ∨ ∃ s, v = .str s ∧ E.redactString s = REDACTED
        else Covered E S v) ∧ ItemsCovered E S d

end

section Masked

variable {E : RedactionEngine} {S : String → Bool}

lemma membersMaskedBy_map {f : Json → Json} {vs : List Json} :
    MembersMaskedBy S vs (vs.map f) ↔ ∀ v ∈ vs, MaskedBy S v (f v) := by
  induction vs with
  | nil => simp [MembersMaskedBy]
  | cons v vs ih => simp [MembersMaskedBy, ih]

lemma itemsMaskedBy_map {f : String × Json → Json} {d : List (String × Json)} :
    ItemsMaskedBy S d (d.map fun kv => (kv.1, f kv)) ↔
      ∀ kv ∈ d, if S kv.1 then f kv = .str REDACTED else MaskedBy S kv.2 (f kv) := by
  induction d with
  | nil => simp [ItemsMaskedBy]
  | cons kv d ih => simp [ItemsMaskedBy, ih]

lemma membersCovered_iff {vs : List Json} :
    MembersCovered E S vs ↔ ∀ v ∈ vs, Covered E S v := by
  induction vs with
  | nil => simp [MembersCovered]
  | cons v vs ih => simp [MembersCovered, ih]

lemma itemsCovered_iff {d : List (String × Json)} :
    ItemsCovered E S d ↔ ∀ kv ∈ d,
      if S kv.1 then E.sensitive kv.1 = true ∨ ∃ s, kv.2 = .str s ∧ E.redactString s = REDACTED
        else Covered E S kv.2 := by
  induction d with
  | nil => simp [ItemsCovered]
  | cons kv d ih => simp [ItemsCovered, ih]

/-- An engine that has every key of `S` misses nothing. -/
lemma covered_of_sensitive (h : ∀ k, S k = true → E.sensitive k = true) (v : Json) :
    Covered E S v := by
  induction v using Json.rec_members with
  | scalar | str => trivial
  | list vs ih | tuple vs ih => exact membersCovered_iff.mpr ih
  | mapping d ih =>
      refine itemsCovered_iff.mpr fun kv hkv => ?_
      split
      · rename_i hs
        exact Or.inl (h _ hs)
      · exact ih kv hkv

lemma itemsCovered_of_sensitive (h : ∀ k, S k = true → E.sensitive k = true)
    {frame : List (String × Json)} : ItemsCovered E S frame :=
  covered_of_sensitive h (.mapping frame)

/-- Only a string is redacted to the mask by itself. -/
lemma redactValue_eq_mask {v : Json} :
    E.redactValue v = .str REDACTED ↔ ∃ s, v = .str s ∧ E.redactString s = REDACTED := by
  cases v <;> simp [RedactionEngine.redactValue]

/-- An item is redacted as it should be exactly if its value is, or if it is masked. -/
lemma redactItem_masked_iff (hS : ∀ k, E.sensitive k = true → S k = true) {kv : String × Json}
    (ih : MaskedBy S kv.2 (E.redactValue kv.2) ↔ Covered E S kv.2) :
    (if S kv.1 then E.redactItem kv = .str REDACTED else MaskedBy S kv.2 (E.redactItem kv)) ↔
      if S kv.1 then E.sensitive kv.1 = true ∨ ∃ s, kv.2 = .str s ∧ E.redactString s = REDACTED
        else Covered E S kv.2 := by
  by_cases hs : S kv.1 = true
  · rw [if_pos hs, if_pos hs, ← redactValue_eq_mask, RedactionEngine.redactItem]
    by_cases he : E.sensitive kv.1 = true
    · simp [he]
    · simp [he]
  · have he : ¬E.sensitive kv.1 = true := fun he => hs (hS _ he)
    rw [if_neg hs, if_neg hs, RedactionEngine.redactItem, if_neg he]
    exact ih

/-- What an engine makes of a value is right exactly if the value has nothing for it to miss. -/
lemma redactValue_masked_iff (hS : ∀ k, E.sensitive k = true → S k = true) (v : Json) :
    MaskedBy S v (E.redactValue v) ↔ Covered E S v := by
  induction v using Json.rec_members with
  | scalar a => simp [MaskedBy, Covered, RedactionEngine.redactValue]
  | str s => simp [MaskedBy, Covered, RedactionEngine.redactValue]
  | list vs ih | tuple vs ih =>
      simp only [MaskedBy, Covered, RedactionEngine.redactValue, Json.list.injEq,
        exists_eq_left', RedactionEngine.redactList_eq_map, membersMaskedBy_map,
        membersCovered_iff]
      exact forall₂_congr ih
  | mapping d ih =>
      simp only [MaskedBy, Covered, RedactionEngine.redactValue, Json.mapping.injEq,
        exists_eq_left', RedactionEngine.redactDict_eq_map, itemsMaskedBy_map, itemsCovered_iff]
      exact forall₂_congr fun kv hkv => redactItem_masked_iff hS (ih kv hkv)

lemma redactFrame_masked_iff (hS : ∀ k, E.sensitive k = true → S k = true)
    (frame : List (String × Json)) :
    ItemsMaskedBy S frame (E.redactFrame frame) ↔ ItemsCovered E S frame := by
  rw [RedactionEngine.redactFrame, RedactionEngine.redactDict_eq_map, itemsMaskedBy_map,
    itemsCovered_iff]
  exact forall₂_congr fun kv _ => redactItem_masked_iff hS (redactValue_masked_iff hS kv.2)

end Masked

/-! ### The redactor of the application -/

section Lifespan

variable (lower : String → String) (patterns : List (String → String))
  (redactionKeys : List String)

/-- Every key of the application's engine is one of the default keys or of the configured
ones. -/
lemma lifespanRedactor_sensitive {k : String}
    (h : (lifespanRedactor lower patterns redactionKeys).sensitive k = true) :
    namedBy lower (DEFAULT_SENSITIVE_KEYS ++ redactionKeys) k = true := by
  obtain ⟨k', hk', hlow⟩ := RedactionEngine.sensitive_new.mp h
  rw [namedBy, decide_eq_true_eq, List.mem_map]
  refine ⟨k', ?_, hlow⟩
  rcases List.mem_append.mp hk' with hk' | hk'
  · exact List.mem_append_right _ (by simpa using hk')
  · refine List.mem_append_left _ ?_
    simp only [List.mem_cons, List.not_mem_nil, or_false] at hk'
    rcases hk' with rfl | rfl | rfl | rfl | rfl <;> decide

/-- **The application's redactor masks a frame as the default and the configured keys require
exactly if the frame has nothing for it to miss.** -/
theorem redactFrame_masks_iff (frame : List (String × Json)) :
    ItemsMaskedBy (namedBy lower (DEFAULT_SENSITIVE_KEYS ++ redactionKeys)) frame
        ((lifespanRedactor lower patterns redactionKeys).redactFrame frame) ↔
      ItemsCovered (lifespanRedactor lower patterns redactionKeys)
        (namedBy lower (DEFAULT_SENSITIVE_KEYS ++ redactionKeys)) frame :=
  redactFrame_masked_iff (fun _ => lifespanRedactor_sensitive lower patterns redactionKeys) frame

/-- The application's redactor is right on every frame exactly if the configured keys make up
for the default keys it leaves out. -/
theorem lifespanRedactor_total_iff :
    (∀ frame, ItemsMaskedBy (namedBy lower (DEFAULT_SENSITIVE_KEYS ++ redactionKeys)) frame
        ((lifespanRedactor lower patterns redactionKeys).redactFrame frame)) ↔
      ∀ k ∈ DEFAULT_SENSITIVE_KEYS,
        (lifespanRedactor lower patterns redactionKeys).sensitive k = true := by
  have hnamed : ∀ {k}, k ∈ DEFAULT_SENSITIVE_KEYS →
      namedBy lower (DEFAULT_SENSITIVE_KEYS ++ redactionKeys) k = true := fun hk => by
    rw [namedBy, decide_eq_true_eq]
    exact List.mem_map_of_mem (List.mem_append_left _ hk)
  constructor
  · intro h k hk
    -- a frame with a number under that key
    have hc := itemsCovered_iff.mp
      ((redactFrame_masks_iff lower patterns redactionKeys _).mp (h [(k, .scalar .null)]))
      (k, .scalar .null) (List.mem_singleton_self _)
    rw [if_pos (hnamed hk)] at hc
    rcases hc with hc | ⟨s, hs, -⟩
    · exact hc
    · cases hs
  · intro h frame
    refine (redactFrame_masks_iff lower patterns redactionKeys _).mpr
      (itemsCovered_of_sensitive fun k hk => ?_)
    obtain ⟨k', hk', hlow⟩ := List.mem_map.mp (of_decide_eq_true hk)
    rcases List.mem_append.mp hk' with hk' | hk'
    · rw [← RedactionEngine.sensitive_congr _ hlow]
      exact h k' hk'
    · exact RedactionEngine.sensitive_new.mpr
        ⟨k', List.mem_append_left _ (List.mem_append_right _ hk'), hlow⟩

/-- With no configured keys a number under `passwd`, a default key, goes through. -/
theorem passwd_survives :
    ∃ frame : List (String × Json), frame = [("passwd", .scalar (.int 1234))] ∧
      "passwd" ∈ DEFAULT_SENSITIVE_KEYS ∧ ∀ patterns,
        (lifespanRedactor String.toLower patterns []).redactFrame frame = frame ∧
          ¬ItemsMaskedBy (namedBy String.toLower (DEFAULT_SENSITIVE_KEYS ++ [])) frame
            ((lifespanRedactor String.toLower patterns []).redactFrame frame) := by
  refine ⟨_, rfl, by decide, fun patterns => ?_⟩
  have hnot : (lifespanRedactor String.toLower patterns []).sensitive "passwd" = false := by
    have h : (lifespanRedactor String.toLower [] []).sensitive "passwd" = false := by
      decide +kernel
    exact h
  have hrun : (lifespanRedactor String.toLower patterns []).redactFrame
      [("passwd", .scalar (.int 1234))] = [("passwd", .scalar (.int 1234))] := by
    simp [RedactionEngine.redactFrame, RedactionEngine.redactDict, RedactionEngine.redactValue,
      hnot]
  have hkey : namedBy String.toLower (DEFAULT_SENSITIVE_KEYS ++ []) "passwd" = true := by
    decide +kernel
  refine ⟨hrun, ?_⟩
  rw [hrun]
  rintro ⟨w, e, he, hw, -⟩
  rw [if_pos hkey] at hw
  simp [hw] at he

end Lifespan

end GgRelay
