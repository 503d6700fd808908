import GgRelay.Lib.Json
import GgRelay.Lib.Quote

/-!
The text of a JSON value as `json.dumps` writes it by default: in ASCII, with `", "` and `": "`.

* `jsonStr` is the text of a string, `dumps` that of a value;
* `Renaming` is a change of characters that no text has to escape, `dumps_rename` says that it
  passes through `dumps`.
-/

namespace GgRelay

/-- A character in the text of a string. -/
def jsonChar (c : Char) : List Char :=
  if c = '"' ∨ c = '\\' then ['\\', c]
  else if c = '\n' then ['\\', 'n']
  else if c = '\r' then ['\\', 'r']
  else if c = '\t' then ['\\', 't']
  else if c.toNat = 12 then ['\\', 'f']
  else if c.toNat = 8 then ['\\', 'b']
  else if 32 ≤ c.toNat ∧ c.toNat < 127 then [c]
  else if c.toNat < 65536 then '\\' :: 'u' :: hex 4 c.toNat
  -- a surrogate pair
  else '\\' :: 'u' :: hex 4 (55296 + (c.toNat - 65536) / 1024) ++
    '\\' :: 'u' :: hex 4 (56320 + (c.toNat - 65536) % 1024)

/-- The characters between the quotes. -/
def jsonBody (cs : List Char) : List Char := cs.flatMap jsonChar

/-- The text of a string. -/
def jsonStr (s : String) : List Char := '"' :: jsonBody s.toList ++ ['"']

namespace Json

/-- The text of a scalar. -/
def scalarText : Scalar → List Char
  | .null => "null".toList
  | .bool true => "true".toList
  | .bool false => "false".toList
  | .int n => (toString n).toList
  | .other repr => repr.toList

mutual

/-- `json.dumps(v)`. -/
def dumps : Json → List Char
  | .scalar a => scalarText a
  | .str s => jsonStr s
  | .list vs | .tuple vs => '[' :: dumpsMembers vs ++ [']']
  | .mapping d => '{' :: dumpsItems d ++ ['}']

/-- The members of an array. -/
def dumpsMembers : List Json → List Char
  | [] => []
  | [v] => dumps v
  | v :: w :: vs => dumps v ++ ',' :: ' ' :: dumpsMembers (w :: vs)

/-- The items of a mapping. -/
def dumpsItems : List (String × Json) → List Char
  | [] => []
  | [(k, v)] => jsonStr k ++ ':' :: ' ' :: dumps v
  | (k, v) :: kv :: d => jsonStr k ++ ':' :: ' ' :: dumps v ++ ',' :: ' ' :: dumpsItems (kv :: d)

end

end Json

/-! ### Renaming characters -/

/-- Characters that are written as themselves in a string, and nowhere outside strings. -/
def Renamable (c : Char) : Prop :=
  32 ≤ c.toNat ∧ c.toNat < 127 ∧ c ≠ '"' ∧ c ≠ '\\' ∧ c ∉ [',', ' ', ':', '[', ']', '{', '}', '-'] ∧
    c.isAlphanum = false

/-- A change of such characters to characters that are written as themselves. -/
def Renaming (φ : Char → Char) : Prop :=
  ∀ c, φ c = c ∨ Renamable c ∧ 32 ≤ (φ c).toNat ∧ (φ c).toNat < 127 ∧ φ c ≠ '"' ∧ φ c ≠ '\\'

namespace Json

/-- The characters of a string, renamed. -/
def renameStr (φ : Char → Char) (s : String) : String := String.ofList (s.toList.map φ)

mutual

/-- The characters of all strings, renamed. -/
def rename (φ : Char → Char) : Json → Json
  | .scalar (.other repr) => .scalar (.other (renameStr φ repr))
  | .scalar a => .scalar a
  | .str s => .str (renameStr φ s)
  | .list vs => .list (renameMembers φ vs)
  | .tuple vs => .tuple (renameMembers φ vs)
  | .mapping d => .mapping (renameItems φ d)

def renameMembers (φ : Char → Char) : List Json → List Json
  | [] => []
  | v :: vs => rename φ v :: renameMembers φ vs

def renameItems (φ : Char → Char) : List (String × Json) → List (String × Json)
  | [] => []
  | (k, v) :: d => (renameStr φ k, rename φ v) :: renameItems φ d

end

variable {φ : Char → Char}

/-- What a renaming leaves alone. -/
lemma fixed (hφ : Renaming φ) {c : Char} (h : ¬Renamable c) : φ c = c :=
  (hφ c).resolve_right fun hc => h hc.1

lemma map_fixed (hφ : Renaming φ) {cs : List Char} (h : ∀ c ∈ cs, ¬Renamable c) :
    cs.map φ = cs := by
  conv_rhs => rw [← List.map_id cs]
  exact List.map_congr_left fun c hc => fixed hφ (h c hc)

lemma not_renamable_alphanum {c : Char} (h : c.isAlphanum = true) : ¬Renamable c := by
  rintro ⟨-, -, -, -, -, hc⟩
  rw [h] at hc
  cases hc

lemma jsonChar_rename (hφ : Renaming φ) (c : Char) : jsonChar (φ c) = (jsonChar c).map φ := by
  rcases hφ c with hc | ⟨⟨hlow, hhigh, hquote, hslash, -, -⟩, hlow', hhigh', hquote', hslash'⟩
  · -- the character stays, and so does everything it may be written with
    have hback : ¬Renamable '\\' := fun h => h.2.2.2.1 rfl
    have hescape : ∀ (k : Char) (w : List Char), ¬Renamable k →
        (∀ d ∈ w, d.isAlphanum = true) → ('\\' :: k :: w).map φ = '\\' :: k :: w := by
      intro k w hk hw
      refine map_fixed hφ ?_
      simp only [List.forall_mem_cons]
      exact ⟨hback, hk, fun d hd => not_renamable_alphanum (hw d hd)⟩
    have hletter : ∀ k : Char, k.isAlphanum = true → ∀ w : List Char,
        (∀ d ∈ w, d.isAlphanum = true) → ('\\' :: k :: w).map φ = '\\' :: k :: w :=
      fun k hk w hw => hescape k w (not_renamable_alphanum hk) hw
    rw [hc, jsonChar]
    split_ifs with h h h h h h h h
    · refine (hescape c [] ?_ (by simp)).symm
      rintro ⟨-, -, hq, hs, -⟩
      exact h.elim hq hs
    · exact (hletter 'n' (by decide) [] (by simp)).symm
    · exact (hletter 'r' (by decide) [] (by simp)).symm
    · exact (hletter 't' (by decide) [] (by simp)).symm
    · exact (hletter 'f' (by decide) [] (by simp)).symm
    · exact (hletter 'b' (by decide) [] (by simp)).symm
    · rw [List.map_cons, hc]
      rfl
    · exact (hletter 'u' (by decide) _ isAlphanum_of_mem_hex).symm
    · rw [List.map_append, hletter 'u' (by decide) _ isAlphanum_of_mem_hex,
        hletter 'u' (by decide) _ isAlphanum_of_mem_hex]
  · have hplain : ∀ d : Char, 32 ≤ d.toNat → d.toNat < 127 → d ≠ '"' → d ≠ '\\' →
        jsonChar d = [d] := by
      intro d hlow hhigh hquote hslash
      have hne : ∀ e : Char, e.toNat < 32 → d ≠ e := by
        rintro e he rfl
        omega
      rw [jsonChar, if_neg (by simp [hquote, hslash]), if_neg (hne _ (by decide)),
        if_neg (hne _ (by decide)), if_neg (hne _ (by decide)), if_neg (by omega),
        if_neg (by omega), if_pos ⟨hlow, hhigh⟩]
    rw [hplain c hlow hhigh hquote hslash, hplain _ hlow' hhigh' hquote' hslash']
    rfl

lemma jsonStr_rename (hφ : Renaming φ) (s : String) :
    jsonStr (renameStr φ s) = (jsonStr s).map φ := by
  have hquote : φ '"' = '"' := fixed hφ fun h => h.2.2.1 rfl
  have hbody : ∀ cs : List Char, jsonBody (cs.map φ) = (jsonBody cs).map φ := by
    intro cs
    rw [jsonBody, jsonBody, List.flatMap_map, List.map_flatMap]
    exact List.flatMap_congr fun c _ => jsonChar_rename hφ c
  rw [jsonStr, jsonStr, renameStr, String.toList_ofList, hbody]
  simp [hquote]

lemma scalarText_int (hφ : Renaming φ) (n : ℤ) :
    (toString n).toList.map φ = (toString n).toList := by
  have hnat : ∀ k : ℕ, ∀ c ∈ (toString k).toList, ¬Renamable c := by
    intro k c hc
    refine not_renamable_alphanum ?_
    have hdigit : c.isDigit = true := by
      refine Nat.isDigit_of_mem_toDigits (b := 10) (n := k) (by omega) (by omega) ?_
      simpa [Nat.repr] using hc
    rw [Char.isAlphanum, hdigit, Bool.or_true]
  refine map_fixed hφ fun c hc => ?_
  cases n with
  | ofNat k => exact hnat k c hc
  | negSucc k =>
      have hc' : c = '-' ∨ c ∈ (toString (k + 1)).toList := by
        have h : (toString (Int.negSucc k)).toList = '-' :: (toString (k + 1)).toList := by
          show ("-" ++ Nat.repr (k + 1)).toList = _
          rw [String.toList_append]
          rfl
        rw [h] at hc
        exact List.mem_cons.mp hc
      rcases hc' with rfl | hc'
      · rintro ⟨-, -, -, -, h, -⟩
        exact h (by decide)
      · exact hnat _ c hc'

lemma scalarText_rename (hφ : Renaming φ) (a : Scalar) :
    dumps (rename φ (.scalar a)) = (scalarText a).map φ := by
  have hword : ∀ w : List Char, (∀ c ∈ w, c.isAlphanum = true) → w = w.map φ := fun w hw =>
    (map_fixed hφ fun c hc => not_renamable_alphanum (hw c hc)).symm
  cases a with
  | null => exact hword "null".toList (List.all_eq_true.mp rfl)
  | bool b =>
      cases b with
      | false => exact hword "false".toList (List.all_eq_true.mp rfl)
      | true => exact hword "true".toList (List.all_eq_true.mp rfl)
  | int n => exact (scalarText_int hφ n).symm
  | other repr => exact String.toList_ofList

mutual

/-- **A renaming passes through the text of a value.** -/
theorem dumps_rename (hφ : Renaming φ) : ∀ j : Json, dumps (rename φ j) = (dumps j).map φ
  | .scalar a => by
      rw [scalarText_rename hφ, dumps]
  | .str s => by
      rw [rename, dumps, dumps, jsonStr_rename hφ]
  | .list vs | .tuple vs => by
      have hopen : φ '[' = '[' := fixed hφ fun h => h.2.2.2.2.1 (by decide)
      have hclose : φ ']' = ']' := fixed hφ fun h => h.2.2.2.2.1 (by decide)
      rw [rename, dumps, dumps, dumpsMembers_rename hφ vs]
      simp [hopen, hclose]
  | .mapping d => by
      have hopen : φ '{' = '{' := fixed hφ fun h => h.2.2.2.2.1 (by decide)
      have hclose : φ '}' = '}' := fixed hφ fun h => h.2.2.2.2.1 (by decide)
      rw [rename, dumps, dumps, dumpsItems_rename hφ d]
      simp [hopen, hclose]

theorem dumpsMembers_rename (hφ : Renaming φ) :
    ∀ vs : List Json, dumpsMembers (renameMembers φ vs) = (dumpsMembers vs).map φ
  | [] => rfl
  | [v] => dumps_rename hφ v
  | v :: w :: vs => by
      have hcomma : φ ',' = ',' := fixed hφ fun h => h.2.2.2.2.1 (by decide)
      have hspace : φ ' ' = ' ' := fixed hφ fun h => h.2.2.2.2.1 (by decide)
      have htail := dumpsMembers_rename hφ (w :: vs)
      rw [renameMembers, renameMembers, dumpsMembers, dumpsMembers, dumps_rename hφ v, ← renameMembers,
        htail]
      simp [hcomma, hspace]

theorem dumpsItems_rename (hφ : Renaming φ) :
    ∀ d : List (String × Json), dumpsItems (renameItems φ d) = (dumpsItems d).map φ
  | [] => rfl
  | [(k, v)] => by
      have hcolon : φ ':' = ':' := fixed hφ fun h => h.2.2.2.2.1 (by decide)
      have hspace : φ ' ' = ' ' := fixed hφ fun h => h.2.2.2.2.1 (by decide)
      rw [renameItems, renameItems, dumpsItems, dumpsItems, jsonStr_rename hφ, dumps_rename hφ v]
      simp [hcolon, hspace]
  | (k, v) :: (l, w) :: d => by
      have hcolon : φ ':' = ':' := fixed hφ fun h => h.2.2.2.2.1 (by decide)
      have hcomma : φ ',' = ',' := fixed hφ fun h => h.2.2.2.2.1 (by decide)
      have hspace : φ ' ' = ' ' := fixed hφ fun h => h.2.2.2.2.1 (by decide)
      have htail := dumpsItems_rename hφ ((l, w) :: d)
      rw [renameItems, renameItems, dumpsItems, dumpsItems, jsonStr_rename hφ, dumps_rename hφ v,
        ← renameItems, htail]
      simp [hcolon, hcomma, hspace]

end

end Json

end GgRelay
