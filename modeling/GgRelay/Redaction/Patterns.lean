import GgRelay.Lib.Regex
import GgRelay.Lib.Substitute
import GgRelay.Redaction.Engine
import GgRelay.Session.Credentials

/-!
The patterns of the redaction engine (`DEFAULT_PATTERNS` of `redaction/engine.py`).

* `SecretPattern` is a pattern, `hit` its match at a place, with the secret in it;
* `DEFAULT_PATTERNS` are the five of the source, `defaultEngine` the engine that has them;
* `masks_find`: no pattern sees beyond an asterisk, or finds anything in the mask.
-/

namespace GgRelay

open Regex Substitute

/-- `\w` of a `str` pattern: what it says of ASCII; of the other characters it knows which are
letters, marks or digits. -/
structure WordClass where
  isWord : Char → Bool
  isWord_ascii : ∀ c, c.toNat < 128 → isWord c = (c.isAlphanum || c == '_')

/-- A pattern: one of the `heads`, then the rest, of which `secret` is what is to be hidden. -/
structure SecretPattern where
  /-- It starts with `\b`. -/
  bounded : Bool := false
  heads : List (List (Item Char))
  lead : List (Item Char) := []
  secret : List (Item Char)
  tail : List (Item Char) := []

/-- A match: how long the part before the secret is, the secret, and the part behind it. -/
structure Hit where
  lead : ℕ
  secret : ℕ
  tail : ℕ
  deriving DecidableEq, Repr

/-- The characters of a match. -/
def Hit.length (h : Hit) : ℕ := h.lead + h.secret + h.tail

namespace SecretPattern

variable (W : WordClass) (P : SecretPattern)

/-- `\b`: one of the two characters at a place is a word character, the other is not. -/
def wordBoundary (prev next : Option Char) : Bool := prev.any W.isWord != next.any W.isWord

/-- The parts of a match that begins with one of the heads. -/
def hitOf (cs : List Char) (head : List (Item Char)) : Option Hit := do
  let n ← matchItems (head ++ P.lead) cs
  let k ← matchItems P.secret (cs.drop n)
  let t ← matchItems P.tail (cs.drop (n + k))
  pure ⟨n, k, t⟩

/-- The match at a place. -/
def hit (prev : Option Char) (cs : List Char) : Option Hit :=
  if P.bounded && !wordBoundary W prev cs.head? then none else P.heads.findSome? (P.hitOf cs)

/-- How long the match at a place is. -/
def find : Finder Char := fun prev cs => ((P.hit W prev cs).map Hit.length).getD 0

/-- `pattern.sub(REDACTED, s)`. -/
def sub (s : String) : String :=
  String.ofList (Substitute.sub (P.find W) id REDACTED.toList none 0 s.toList)

/-- Where the secrets of the matches of a text start, and their lengths: `pattern.finditer`. -/
def secrets (cs : List Char) : List (ℕ × ℕ) :=
  (finditer (P.find W) none 0 0 cs).filterMap fun m =>
    (P.hit W (cs.take m.1).getLast? (cs.drop m.1)).map fun h => (m.1 + h.lead, h.secret)

end SecretPattern

/-! ### The five patterns -/

/-- The characters that a letter of a pattern stands for under `(?i)`. -/
def caseVariants : Char → List Char
  | 'i' => ['i', 'I', 'ı', 'İ']
  | 'k' => ['k', 'K', '\u212A']
  | 's' => ['s', 'S', 'ſ']
  | c => [c, c.toUpper]

/-- A character of a text under `(?i)`. -/
def anyCase (c : Char) : Item Char := .one fun d => caseVariants c |>.contains d

/-- A character of a text. -/
def exactly (c : Char) : Item Char := .one fun d => d == c

/-- ``api_key=value`` / ``api-key: value`` / ``token = "value"`` / …:
`(?i)\b(api[_-]?key|token|secret|password)\b\s*[:=]\s*['\"]?([\w\-\.\+/]+)['\"]?`. Behind a keyword,
`\b` says that no word character follows. -/
def assignmentPattern (W : WordClass) : SecretPattern where
  bounded := true
  heads :=
    [['a', 'p', 'i'].map anyCase ++ .opt (['_', '-'].contains ·) :: ['k', 'e', 'y'].map anyCase,
      ['t', 'o', 'k', 'e', 'n'].map anyCase,
      ['s', 'e', 'c', 'r', 'e', 't'].map anyCase,
      ['p', 'a', 's', 's', 'w', 'o', 'r', 'd'].map anyCase]
  lead := [.notBefore W.isWord, .many isSpace, .one ([':', '='].contains ·), .many isSpace,
    .opt (['\'', '"'].contains ·)]
  secret := some1 fun c => W.isWord c || ['-', '.', '+', '/'].contains c
  tail := [.opt (['\'', '"'].contains ·)]

/-- Anthropic API key shape: `sk-ant-[\w\-]+`. -/
def anthropicPattern (W : WordClass) : SecretPattern where
  heads := [['s', 'k', '-', 'a', 'n', 't', '-'].map exactly]
  secret := some1 fun c => W.isWord c || c == '-'

/-- Authorization: `(?i)bearer\s+[\w\-\.]+`. -/
def bearerPattern (W : WordClass) : SecretPattern where
  heads := [['b', 'e', 'a', 'r', 'e', 'r'].map anyCase]
  lead := some1 isSpace
  secret := some1 fun c => W.isWord c || ['-', '.'].contains c

/-- AWS Access Key ID format: `AKIA[0-9A-Z]{16}`. -/
def awsPattern : SecretPattern where
  heads := [['A', 'K', 'I', 'A'].map exactly]
  secret := times 16 fun c => c.isDigit || c.isUpper

/-- GitHub personal-access token: `gh[posu]_[A-Za-z0-9]{36,}`. -/
def githubPattern : SecretPattern where
  heads := [[exactly 'g', exactly 'h', .one (['p', 'o', 's', 'u'].contains ·), exactly '_']]
  secret := times 36 Char.isAlphanum ++ [.many Char.isAlphanum]

/-- `DEFAULT_PATTERNS`. -/
def DEFAULT_PATTERNS (W : WordClass) : List SecretPattern :=
  [assignmentPattern W, anthropicPattern W, bearerPattern W, awsPattern, githubPattern]

/-- The engine with the default patterns and keys: `RedactionEngine()`. -/
def defaultEngine (W : WordClass) (lower : String → String) : RedactionEngine :=
  .new lower ((DEFAULT_PATTERNS W).map fun P => P.sub W) DEFAULT_SENSITIVE_KEYS

/-! ### What the patterns look at -/

namespace SecretPattern

/-- The row of a whole match. -/
def rowOf (P : SecretPattern) (head : List (Item Char)) : List (Item Char) :=
  head ++ P.lead ++ P.secret ++ P.tail

/-- What is needed of a pattern: no item admits an asterisk, what looks ahead goes on, and the heads
begin with different characters. -/
structure Sound (P : SecretPattern) : Prop where
  clear : ∀ head ∈ P.heads, ∀ item ∈ P.rowOf head, item.set '*' = false
  firm : ∀ head ∈ P.heads, Firm (P.rowOf head)
  exclusive : Exclusive (P.heads.map P.rowOf)
  inert : ∀ u ∈ "REDACTED".toList.tails, ∀ head ∈ P.heads, matchItems (P.rowOf head) u = none

variable {W : WordClass} {P : SecretPattern}

lemma hitOf_length (cs : List Char) (head : List (Item Char)) :
    (P.hitOf cs head).map Hit.length = matchItems (P.rowOf head) cs := by
  rw [rowOf, List.append_assoc (head ++ P.lead), matchItems_append (head ++ P.lead), hitOf]
  cases matchItems (head ++ P.lead) cs with
  | none => rfl
  | some n =>
      simp only [matchItems_append, List.drop_drop, Option.bind_some, Option.bind_eq_bind]
      cases matchItems P.secret (cs.drop n) with
      | none => rfl
      | some k =>
          simp only [Option.bind_some]
          cases matchItems P.tail (cs.drop (n + k)) with
          | none => rfl
          | some t => simp [Hit.length, Nat.add_assoc]

/-- The length of the match is that of the first row that matches. -/
lemma find_eq (prev : Option Char) (cs : List Char) :
    P.find W prev cs =
      if P.bounded && !wordBoundary W prev cs.head? then 0
      else ((P.heads.map P.rowOf).findSome? fun row => matchItems row cs).getD 0 := by
  rw [find, hit]
  split_ifs
  · rfl
  · rw [List.findSome?_map, List.map_findSome?]
    congr 2
    exact funext fun head => hitOf_length cs head

lemma wordBoundary_bar (prev : Option Char) :
    wordBoundary W prev (some '*') = wordBoundary W prev none := by
  simp only [wordBoundary, Option.any_some, Option.any_none]
  rw [W.isWord_ascii '*' (by decide)]
  rfl

lemma find_le_length (prev : Option Char) (cs : List Char) : P.find W prev cs ≤ cs.length := by
  rw [find_eq]
  split_ifs
  · exact Nat.zero_le _
  · cases h : (P.heads.map P.rowOf).findSome? fun row => matchItems row cs with
    | none => exact Nat.zero_le _
    | some n =>
        obtain ⟨row, -, hrow⟩ := List.exists_of_findSome?_eq_some h
        exact le_length_of_matchItems hrow

/-- Beyond an asterisk a pattern does not look. -/
lemma find_append_bar (h : P.Sound) (prev : Option Char) (u v : List Char) :
    P.find W prev (u ++ '*' :: v) = P.find W prev u := by
  have hhead : wordBoundary W prev (u ++ '*' :: v).head? = wordBoundary W prev u.head? := by
    cases u with
    | nil => exact wordBoundary_bar prev
    | cons c u => rfl
  have hrows : ((P.heads.map P.rowOf).findSome? fun row => matchItems row (u ++ '*' :: v))
      = (P.heads.map P.rowOf).findSome? fun row => matchItems row u := by
    rw [List.findSome?_map, List.findSome?_map]
    refine findSome?_congr fun head hhead => ?_
    exact matchItems_append_bar (h.clear head hhead) u v
  rw [find_eq, find_eq, hhead, hrows]

/-- With more text behind, a pattern finds no less. -/
lemma find_mono (h : P.Sound) (prev : Option Char) {u v : List Char} (huv : u <+: v) :
    P.find W prev u ≤ P.find W prev v := by
  cases u with
  | nil => exact (find_le_length prev []).trans (Nat.zero_le _)
  | cons c u =>
      obtain ⟨v, rfl, hv⟩ := List.cons_prefix_iff.mp huv
      rw [find_eq, find_eq, List.head?_cons, List.head?_cons]
      split_ifs
      · exact le_rfl
      · cases hn : (P.heads.map P.rowOf).findSome? fun row => matchItems row (c :: u) with
        | none => exact Nat.zero_le _
        | some n =>
            obtain ⟨row, hrow, hmatch⟩ := List.exists_of_findSome?_eq_some hn
            obtain ⟨head, hhead, rfl⟩ := List.mem_map.mp hrow
            obtain ⟨m, hm, hle⟩ := matchItems_mono (h.firm head hhead) huv hmatch
            rw [findSome?_matchItems h.exclusive hrow hm]
            exact hle

/-- With less text behind, but with all of its match, a pattern finds the same. -/
lemma find_cut (h : P.Sound) (prev : Option Char) {u v : List Char} (huv : u <+: v)
    (hle : P.find W prev v ≤ u.length) : P.find W prev u = P.find W prev v := by
  rcases Nat.eq_zero_or_pos (P.find W prev v) with hzero | hpos
  · have := find_mono (W := W) h prev huv
    omega
  · cases u with
    | nil =>
        rw [List.length_nil] at hle
        omega
    | cons c u =>
        obtain ⟨v, rfl, hv⟩ := List.cons_prefix_iff.mp huv
        rw [find_eq, List.head?_cons] at hpos hle
        rw [find_eq, find_eq, List.head?_cons, List.head?_cons]
        split_ifs at hpos hle ⊢
        · exact absurd hpos (lt_irrefl 0)
        · cases hn : (P.heads.map P.rowOf).findSome? fun row => matchItems row (c :: v) with
          | none => simp [hn] at hpos
          | some n =>
              obtain ⟨row, hrow, hmatch⟩ := List.exists_of_findSome?_eq_some hn
              rw [hn] at hle
              rw [findSome?_matchItems h.exclusive hrow (matchItems_of_shorter huv hmatch hle)]

/-- A nonempty end of the mask is an end of its letters up to an asterisk. -/
lemma suffix_mask {u : List Char} (hu : u <:+ REDACTED.toList) (hne : u ≠ []) :
    ∃ w w', u = w ++ '*' :: w' ∧ w ∈ "REDACTED".toList.tails := by
  have hall : ∀ u ∈ REDACTED.toList.tails, u ≠ [] →
      '*' ∈ u ∧ u.takeWhile (· ≠ '*') ∈ "REDACTED".toList.tails := by decide
  obtain ⟨hmem, htake⟩ := hall u ((List.mem_tails _ _).mpr hu) hne
  obtain ⟨w, w', rfl, hw⟩ := List.eq_append_cons_of_mem hmem
  refine ⟨w, w', rfl, ?_⟩
  rwa [List.takeWhile_append_of_pos fun c hc => by simpa using ne_of_mem_of_not_mem hc hw,
    List.takeWhile_cons_of_neg (by simp), List.append_nil] at htake

/-- A pattern sees no further than to an asterisk, and finds nothing that starts in the mask. -/
theorem Sound.masks_find (h : P.Sound) : Masks (P.find W) '*' REDACTED.toList where
  le_length := find_le_length
  mono := fun prev _ _ => find_mono h prev
  cut := fun prev _ _ => find_cut h prev
  append_bar := find_append_bar h
  inert := by
    intro prev u v hu hne
    obtain ⟨w, w', rfl, hw⟩ := suffix_mask hu hne
    have hnone : ((P.heads.map P.rowOf).findSome? fun row => matchItems row w) = none := by
      rw [List.findSome?_map, List.findSome?_eq_none_iff]
      exact fun head hhead => h.inert w hw head hhead
    rw [List.append_assoc, List.cons_append, find_append_bar h, find_eq, hnone]
    split_ifs <;> rfl
  head := rfl
  last := rfl

lemma blind_find (h : P.bounded = false) : Blind (P.find W) := by
  intro prev prev' cs
  rw [find_eq, find_eq, h]
  rfl

end SecretPattern

/-! ### The default patterns are such patterns -/

section Sound

variable {W : WordClass}

/-- The ends of the letters of the mask. -/
lemma forall_tails {p : List Char → Prop} :
    (∀ u ∈ "REDACTED".toList.tails, p u) ↔
      p ['R', 'E', 'D', 'A', 'C', 'T', 'E', 'D'] ∧ p ['E', 'D', 'A', 'C', 'T', 'E', 'D'] ∧
        p ['D', 'A', 'C', 'T', 'E', 'D'] ∧ p ['A', 'C', 'T', 'E', 'D'] ∧ p ['C', 'T', 'E', 'D'] ∧
        p ['T', 'E', 'D'] ∧ p ['E', 'D'] ∧ p ['D'] ∧ p [] := by
  have htails : "REDACTED".toList.tails = [['R', 'E', 'D', 'A', 'C', 'T', 'E', 'D'],
      ['E', 'D', 'A', 'C', 'T', 'E', 'D'], ['D', 'A', 'C', 'T', 'E', 'D'], ['A', 'C', 'T', 'E', 'D'],
      ['C', 'T', 'E', 'D'], ['T', 'E', 'D'], ['E', 'D'], ['D'], []] := by decide
  simp only [htails, List.forall_mem_cons, List.not_mem_nil, false_implies, implies_true, and_true]

lemma isWord_bar : W.isWord '*' = false := W.isWord_ascii '*' (by decide)

lemma sound_assignmentPattern : (assignmentPattern W).Sound where
  clear := by
    simp [-List.mem_cons, -List.mem_append, assignmentPattern, SecretPattern.rowOf, Item.set, some1,
      anyCase, caseVariants, List.forall_mem_cons, List.forall_mem_append, isWord_bar, isSpace]
  firm := by
    simp [assignmentPattern, SecretPattern.rowOf, Firm, matchItems, some1, anyCase]
  exclusive := by
    simp [assignmentPattern, SecretPattern.rowOf, Exclusive, begins, anyCase, caseVariants]
  inert := by
    simp only [forall_tails, assignmentPattern, List.forall_mem_cons]
    refine ⟨?_, ?_, ?_, ?_, ?_, ?_, ?_, ?_, ?_⟩ <;> exact ⟨rfl, rfl, rfl, rfl, by simp⟩

lemma sound_anthropicPattern : (anthropicPattern W).Sound where
  clear := by
    simp [-List.mem_cons, -List.mem_append, anthropicPattern, SecretPattern.rowOf, Item.set, some1,
      exactly, List.forall_mem_cons, List.forall_mem_append, isWord_bar]
  firm := by simp [anthropicPattern, SecretPattern.rowOf, Firm, some1, exactly]
  exclusive := List.pairwise_singleton _ _
  inert := by
    simp only [forall_tails, anthropicPattern, List.forall_mem_cons]
    refine ⟨?_, ?_, ?_, ?_, ?_, ?_, ?_, ?_, ?_⟩ <;> exact ⟨rfl, by simp⟩

lemma sound_bearerPattern : (bearerPattern W).Sound where
  clear := by
    simp [-List.mem_cons, -List.mem_append, bearerPattern, SecretPattern.rowOf, Item.set, some1,
      anyCase, caseVariants, List.forall_mem_cons, List.forall_mem_append, isWord_bar, isSpace]
  firm := by simp [bearerPattern, SecretPattern.rowOf, Firm, some1, anyCase]
  exclusive := List.pairwise_singleton _ _
  inert := by
    simp only [forall_tails, bearerPattern, List.forall_mem_cons]
    refine ⟨?_, ?_, ?_, ?_, ?_, ?_, ?_, ?_, ?_⟩ <;> exact ⟨rfl, by simp⟩

lemma sound_awsPattern : awsPattern.Sound where
  clear := by
    simp [-List.mem_cons, -List.mem_append, awsPattern, SecretPattern.rowOf, Item.set, times,
      exactly, List.forall_mem_cons, List.forall_mem_append, List.replicate]
  firm := by simp [awsPattern, SecretPattern.rowOf, Firm, times, exactly, List.replicate]
  exclusive := List.pairwise_singleton _ _
  inert := by
    simp only [forall_tails, awsPattern, List.forall_mem_cons]
    refine ⟨?_, ?_, ?_, ?_, ?_, ?_, ?_, ?_, ?_⟩ <;> exact ⟨rfl, by simp⟩

lemma sound_githubPattern : githubPattern.Sound where
  clear := by
    simp [-List.mem_cons, -List.mem_append, githubPattern, SecretPattern.rowOf, Item.set, times,
      exactly, List.forall_mem_cons, List.forall_mem_append, List.replicate]
  firm := by simp [githubPattern, SecretPattern.rowOf, Firm, times, exactly, List.replicate]
  exclusive := List.pairwise_singleton _ _
  inert := by
    simp only [forall_tails, githubPattern, List.forall_mem_cons]
    refine ⟨?_, ?_, ?_, ?_, ?_, ?_, ?_, ?_, ?_⟩ <;> exact ⟨rfl, by simp⟩

/-- Every default pattern is one that the mask suits. -/
lemma masks_default : ∀ P ∈ DEFAULT_PATTERNS W, Masks (P.find W) '*' REDACTED.toList := by
  simp only [DEFAULT_PATTERNS, List.forall_mem_cons]
  exact ⟨sound_assignmentPattern.masks_find, sound_anthropicPattern.masks_find,
    sound_bearerPattern.masks_find, sound_awsPattern.masks_find, sound_githubPattern.masks_find,
    by simp⟩

end Sound

end GgRelay
