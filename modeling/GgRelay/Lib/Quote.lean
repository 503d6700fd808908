import Mathlib.Tactic

/-!
Quoted texts of strings, as a language prints them in the text of a list.

* `hex` writes a number in hexadecimal digits;
* `reprStr` is the `repr` of a string, `reprList` that of a list of strings;
* `reprList_injective`: the text determines the list; `reprList_suffix`: no text is a proper end of
  another, since the quotes of a text that is read from its middle never fall into step.
-/

namespace GgRelay

/-! ### Hexadecimal digits -/

/-- A hexadecimal digit, in lower case. -/
def hexDigit (n : ℕ) : Char := if n < 10 then Char.ofNat (48 + n) else Char.ofNat (87 + n)

/-- The value of a hexadecimal digit. -/
def hexVal (c : Char) : ℕ := if c.toNat < 58 then c.toNat - 48 else c.toNat - 87

/-- `w` hexadecimal digits. -/
def hex : ℕ → ℕ → List Char
  | 0, _ => []
  | w + 1, n => hex w (n / 16) ++ [hexDigit (n % 16)]

/-- The value of hexadecimal digits. -/
def unhex (cs : List Char) : ℕ := cs.foldl (fun n c => 16 * n + hexVal c) 0

@[simp] lemma length_hex (w n : ℕ) : (hex w n).length = w := by
  induction w generalizing n with
  | zero => rfl
  | succ w ih => rw [hex, List.length_append, ih, List.length_singleton]

lemma hexVal_hexDigit {n : ℕ} (h : n < 16) : hexVal (hexDigit n) = n := by
  have h16 : ∀ n < 16, hexVal (hexDigit n) = n := by decide
  exact h16 n h

/-- A hexadecimal digit is a digit or a letter. -/
lemma isAlphanum_hexDigit {n : ℕ} (h : n < 16) : (hexDigit n).isAlphanum = true := by
  have h16 : ∀ n < 16, (hexDigit n).isAlphanum = true := by decide
  exact h16 n h

lemma isAlphanum_of_mem_hex {w n : ℕ} : ∀ c ∈ hex w n, c.isAlphanum = true := by
  induction w generalizing n with
  | zero => simp [hex]
  | succ w ih =>
      rw [hex, List.forall_mem_append]
      refine ⟨ih, fun c hc => ?_⟩
      rw [List.mem_singleton.mp hc]
      exact isAlphanum_hexDigit (Nat.mod_lt _ (by omega))

lemma unhex_hex {w n : ℕ} (h : n < 16 ^ w) : unhex (hex w n) = n := by
  induction w generalizing n with
  | zero =>
      have hn : n = 0 := by simpa using h
      rw [hn]
      rfl
  | succ w ih =>
      have hdiv : n / 16 < 16 ^ w := by
        rw [Nat.div_lt_iff_lt_mul (by omega)]
        rwa [pow_succ] at h
      have hfold : unhex (hex (w + 1) n) = 16 * unhex (hex w (n / 16)) + hexVal (hexDigit (n % 16)) :=
        by rw [hex, unhex, List.foldl_append]; rfl
      rw [hfold, ih hdiv, hexVal_hexDigit (Nat.mod_lt _ (by omega))]
      omega

/-- A hexadecimal digit, in either case. -/
def isHex (c : Char) : Bool :=
  c.isDigit || (97 ≤ c.toNat && c.toNat ≤ 102) || (65 ≤ c.toNat && c.toNat ≤ 70)

/-- The lower case of a hexadecimal digit. -/
def lowerHex (c : Char) : Char := if 65 ≤ c.toNat && c.toNat ≤ 70 then Char.ofNat (c.toNat + 32) else c

lemma isHex_hexDigit {n : ℕ} (h : n < 16) :
    isHex (hexDigit n) = true ∧ lowerHex (hexDigit n) = hexDigit n := by
  have h16 : ∀ n < 16, isHex (hexDigit n) = true ∧ lowerHex (hexDigit n) = hexDigit n := by decide
  exact h16 n h

lemma isHex_of_mem_hex {w n : ℕ} : ∀ c ∈ hex w n, isHex c = true ∧ lowerHex c = c := by
  induction w generalizing n with
  | zero => simp [hex]
  | succ w ih =>
      rw [hex, List.forall_mem_append]
      refine ⟨ih, fun c hc => ?_⟩
      rw [List.mem_singleton.mp hc]
      exact isHex_hexDigit (Nat.mod_lt _ (by omega))

/-! ### The text of a string -/

section Repr

variable (printable : Char → Bool)

/-- A character of a text in these quotes; `printable` is `str.isprintable` beyond ASCII. -/
def reprChar (q c : Char) : List Char :=
  if c = q ∨ c = '\\' then ['\\', c]
  else if c = '\t' then ['\\', 't']
  else if c = '\n' then ['\\', 'n']
  else if c = '\r' then ['\\', 'r']
  else if 32 ≤ c.toNat ∧ (c.toNat < 127 ∨ 128 ≤ c.toNat ∧ printable c) then [c]
  else if c.toNat < 256 then '\\' :: 'x' :: hex 2 c.toNat
  else if c.toNat < 65536 then '\\' :: 'u' :: hex 4 c.toNat
  else '\\' :: 'U' :: hex 8 c.toNat

/-- The characters between the quotes. -/
def reprBody (q : Char) (cs : List Char) : List Char := cs.flatMap (reprChar printable q)

/-- The quotes of a string: double ones if it has single quotes and no double ones. -/
def quoteOf (cs : List Char) : Char := if '\'' ∈ cs ∧ '"' ∉ cs then '"' else '\''

/-- `repr(s)`. -/
def reprStr (s : String) : List Char :=
  quoteOf s.toList :: reprBody printable (quoteOf s.toList) s.toList ++ [quoteOf s.toList]

/-- The items of a list. -/
def reprItems : List String → List Char
  | [] => []
  | [s] => reprStr printable s
  | s :: t :: ss => reprStr printable s ++ ',' :: ' ' :: reprItems (t :: ss)

/-- `str(ss)`. -/
def reprList (ss : List String) : List Char := '[' :: reprItems printable ss ++ [']']

/-! ### The text determines the list -/

/-- The first character of a text in quotes, and what follows it. -/
def readChar : List Char → Option (Char × List Char)
  | [] => none
  | ['\\'] => none
  | '\\' :: k :: r =>
      if k = 't' then some ('\t', r)
      else if k = 'n' then some ('\n', r)
      else if k = 'r' then some ('\r', r)
      else if k = 'x' then some (Char.ofNat (unhex (r.take 2)), r.drop 2)
      else if k = 'u' then some (Char.ofNat (unhex (r.take 4)), r.drop 4)
      else if k = 'U' then some (Char.ofNat (unhex (r.take 8)), r.drop 8)
      else some (k, r)
  | c :: r => some (c, r)

/-- One of the two quotes. -/
def IsQuote (q : Char) : Prop := q = '\'' ∨ q = '"'

lemma quoteOf_isQuote (cs : List Char) : IsQuote (quoteOf cs) := by
  rw [quoteOf]
  split_ifs
  · exact Or.inr rfl
  · exact Or.inl rfl

variable {printable} {q c : Char} {r : List Char}

lemma readChar_plain (h : c ≠ '\\') : readChar (c :: r) = some (c, r) := by
  rw [readChar]
  all_goals simp [h]

lemma readChar_hex {k : Char} {w : ℕ} (hk : (k, w) ∈ [('x', 2), ('u', 4), ('U', 8)])
    (hc : c.toNat < 16 ^ w) : readChar ('\\' :: k :: hex w c.toNat ++ r) = some (c, r) := by
  have hread : readChar ('\\' :: k :: hex w c.toNat ++ r)
      = some (Char.ofNat (unhex ((hex w c.toNat ++ r).take w)), (hex w c.toNat ++ r).drop w) := by
    simp only [List.mem_cons, Prod.mk.injEq, List.not_mem_nil, or_false] at hk
    rcases hk with ⟨rfl, rfl⟩ | ⟨rfl, rfl⟩ | ⟨rfl, rfl⟩ <;> rfl
  rw [hread, List.take_left' (length_hex w _), List.drop_left' (length_hex w _), unhex_hex hc,
    Char.ofNat_toNat]

lemma readChar_reprChar (hq : IsQuote q) : readChar (reprChar printable q c ++ r) = some (c, r) := by
  have hlt : c.toNat < 16 ^ 8 := by
    have h := c.valid
    rcases h with h | h
    · have : c.toNat < 55296 := h
      omega
    · have : c.toNat < 1114112 := h.2
      omega
  rw [reprChar]
  split_ifs with h h h h h h h
  · show readChar ('\\' :: c :: r) = _
    rcases h with rfl | rfl
    · rcases hq with rfl | rfl <;> rfl
    · rfl
  · rw [h]; rfl
  · rw [h]; rfl
  · rw [h]; rfl
  · rename_i h0 _ _ _
    exact readChar_plain fun h' => h0 (Or.inr h')
  · exact readChar_hex (by simp) (by omega)
  · exact readChar_hex (by simp) (by omega)
  · exact readChar_hex (by simp) hlt

/-- A character inside does not look like the closing quote. -/
lemma head_reprChar (hq : IsQuote q) : ∀ r', reprChar printable q c ++ r ≠ q :: r' := by
  intro r' h
  have hslash : '\\' ≠ q := by rcases hq with rfl | rfl <;> decide
  rw [reprChar] at h
  split_ifs at h with h0
  · exact hslash (List.cons.inj h).1
  · exact hslash (List.cons.inj h).1
  · exact hslash (List.cons.inj h).1
  · exact hslash (List.cons.inj h).1
  · exact h0 (Or.inl (List.cons.inj h).1)
  · exact hslash (List.cons.inj h).1
  · exact hslash (List.cons.inj h).1
  · exact hslash (List.cons.inj h).1

lemma reprBody_inj (hq : IsQuote q) {cs ds r r' : List Char}
    (h : reprBody printable q cs ++ q :: r = reprBody printable q ds ++ q :: r') :
    cs = ds ∧ r = r' := by
  induction cs generalizing ds with
  | nil =>
      cases ds with
      | nil => exact ⟨rfl, (List.cons.inj h).2⟩
      | cons d ds =>
          rw [reprBody, reprBody, List.flatMap_nil, List.nil_append, List.flatMap_cons,
            List.append_assoc] at h
          exact absurd h.symm (head_reprChar hq _)
  | cons c cs ih =>
      cases ds with
      | nil =>
          rw [reprBody, reprBody, List.flatMap_nil, List.nil_append, List.flatMap_cons,
            List.append_assoc] at h
          exact absurd h (head_reprChar hq _)
      | cons d ds =>
          rw [reprBody, reprBody, List.flatMap_cons, List.flatMap_cons, List.append_assoc,
            List.append_assoc] at h
          have hread := congrArg readChar h
          rw [readChar_reprChar hq, readChar_reprChar hq] at hread
          obtain ⟨rfl, hrest⟩ := Prod.mk.inj (Option.some.inj hread)
          obtain ⟨rfl, rfl⟩ := ih hrest
          exact ⟨rfl, rfl⟩

lemma reprStr_inj {s t : String} {r r' : List Char}
    (h : reprStr printable s ++ r = reprStr printable t ++ r') : s = t ∧ r = r' := by
  rw [reprStr, reprStr, List.cons_append, List.cons_append, List.cons_append, List.cons_append,
    List.append_assoc, List.append_assoc] at h
  obtain ⟨hquote, h⟩ := List.cons.inj h
  rw [← hquote] at h
  obtain ⟨hst, hr⟩ := reprBody_inj (quoteOf_isQuote _) h
  exact ⟨String.toList_injective hst, hr⟩

lemma reprItems_inj {ss ts : List String} {r r' : List Char}
    (h : reprItems printable ss ++ ']' :: r = reprItems printable ts ++ ']' :: r') : ss = ts := by
  have hbracket : ∀ (s : String) (r r' : List Char), reprStr printable s ++ r ≠ ']' :: r' := by
    intro s r r' h
    rcases quoteOf_isQuote s.toList with hq | hq
    · exact absurd (hq.symm.trans (List.cons.inj h).1) (by decide)
    · exact absurd (hq.symm.trans (List.cons.inj h).1) (by decide)
  induction ss generalizing ts with
  | nil =>
      match ts with
      | [] => rfl
      | [t] => exact absurd h.symm (hbracket t _ _)
      | t :: u :: ts =>
          rw [reprItems, reprItems, List.append_assoc] at h
          exact absurd h.symm (hbracket t _ _)
  | cons s ss ih =>
      match ts, ss with
      | [], [] => exact absurd h (hbracket s _ _)
      | [], u :: ss =>
          rw [reprItems, reprItems, List.append_assoc] at h
          exact absurd h (hbracket s _ _)
      | [t], [] => rw [(reprStr_inj h).1]
      | [t], u :: ss =>
          rw [reprItems, reprItems, List.append_assoc] at h
          exact absurd (List.cons.inj (reprStr_inj h).2).1 (by decide)
      | t :: v :: ts, [] =>
          rw [reprItems, reprItems, List.append_assoc] at h
          exact absurd (List.cons.inj (reprStr_inj h).2).1 (by decide)
      | t :: v :: ts, u :: ss =>
          rw [reprItems, reprItems, List.append_assoc, List.append_assoc] at h
          obtain ⟨rfl, htail⟩ := reprStr_inj h
          rw [ih (List.cons.inj (List.cons.inj htail).2).2]

/-- **The text of a list determines it.** -/
theorem reprList_injective : Function.Injective (reprList printable) := by
  intro ss ts h
  exact reprItems_inj (List.cons.inj h).2

/-! ### No text is the end of another -/

/-- Where a reader of the text of a list is. -/
inductive Scan where
  | start
  /-- between the strings -/
  | outside
  /-- in a string in these quotes -/
  | inside (q : Char)
  /-- after a backslash in it -/
  | escaped (q : Char)
  | bad

/-- The next character. -/
def Scan.step : Scan → Char → Scan
  | .start, c => if c = '[' then .outside else .bad
  | .outside, c =>
      if c = '\'' ∨ c = '"' then .inside c
      else if c = ',' ∨ c = ' ' ∨ c = ']' then .outside
      else .bad
  | .inside q, c => if c = q then .outside else if c = '\\' then .escaped q else .inside q
  | .escaped q, _ => .inside q
  | .bad, _ => .bad

/-- The characters of a text. -/
def scan (st : Scan) (cs : List Char) : Scan := cs.foldl Scan.step st

@[simp] lemma scan_nil (st : Scan) : scan st [] = st := rfl

@[simp] lemma scan_cons (st : Scan) (c : Char) (cs : List Char) :
    scan st (c :: cs) = scan (st.step c) cs := rfl

lemma scan_append (st : Scan) (cs ds : List Char) : scan st (cs ++ ds) = scan (scan st cs) ds :=
  List.foldl_append

lemma scan_bad (cs : List Char) : scan .bad cs = .bad := by
  induction cs with
  | nil => rfl
  | cons c cs ih => exact ih

/-- Letters and digits are inside. -/
lemma scan_inside_alphanum (hq : IsQuote q) {cs : List Char}
    (h : ∀ c ∈ cs, c.isAlphanum = true) : scan (.inside q) cs = .inside q := by
  induction cs with
  | nil => rfl
  | cons c cs ih =>
      obtain ⟨hc, hcs⟩ := List.forall_mem_cons.mp h
      have hcq : c ≠ q := by
        rintro rfl
        rcases hq with rfl | rfl <;> exact absurd hc (by decide)
      have hslash : c ≠ '\\' := by
        rintro rfl
        exact absurd hc (by decide)
      rw [scan_cons, Scan.step, if_neg hcq, if_neg hslash]
      exact ih hcs

lemma scan_reprChar (hq : IsQuote q) : scan (.inside q) (reprChar printable q c) = .inside q := by
  have hescape : ∀ (k : Char) (w : List Char), (∀ d ∈ w, d.isAlphanum = true) →
      scan (.inside q) ('\\' :: k :: w) = .inside q := by
    intro k w hw
    have hslash : '\\' ≠ q := by rcases hq with rfl | rfl <;> decide
    rw [scan_cons, Scan.step, if_neg hslash, if_pos rfl]
    exact scan_inside_alphanum hq hw
  rw [reprChar]
  split_ifs with h0 h h h h h h
  · exact hescape c [] (by simp)
  · exact hescape 't' [] (by simp)
  · exact hescape 'n' [] (by simp)
  · exact hescape 'r' [] (by simp)
  · rw [scan_cons, Scan.step, if_neg fun h => h0 (Or.inl h), if_neg fun h => h0 (Or.inr h)]
    rfl
  · exact hescape 'x' _ isAlphanum_of_mem_hex
  · exact hescape 'u' _ isAlphanum_of_mem_hex
  · exact hescape 'U' _ isAlphanum_of_mem_hex

lemma scan_reprStr (s : String) : scan .outside (reprStr printable s) = .outside := by
  have hq := quoteOf_isQuote s.toList
  have hbody : ∀ cs, scan (.inside (quoteOf s.toList)) (reprBody printable (quoteOf s.toList) cs)
      = .inside (quoteOf s.toList) := by
    intro cs
    induction cs with
    | nil => rfl
    | cons c cs ih =>
        rw [reprBody, List.flatMap_cons, scan_append, scan_reprChar hq]
        exact ih
  rw [reprStr, List.cons_append, scan_cons, Scan.step, if_pos (show _ ∨ _ from hq), scan_append, hbody, scan_cons,
    Scan.step, if_pos rfl, scan_nil]

lemma scan_reprList (ss : List String) : scan .start (reprList printable ss) = .outside := by
  have hitems : ∀ ss, scan .outside (reprItems printable ss) = .outside := by
    intro ss
    induction ss with
    | nil => rfl
    | cons s ss ih =>
        cases ss with
        | nil => exact scan_reprStr s
        | cons t ss =>
            rw [reprItems, scan_append, scan_reprStr]
            exact ih
  show scan .outside (reprItems printable ss ++ [']']) = .outside
  rw [scan_append, hitems]
  rfl

/-- The quotes a reader is in are quotes, and it has begun. -/
def Scan.Begun : Scan → Prop
  | .start => False
  | .inside q | .escaped q => IsQuote q
  | .outside | .bad => True

lemma Scan.begun_step {st : Scan} (h : st = .start ∨ st.Begun) (c : Char) : (st.step c).Begun := by
  cases st with
  | start =>
      simp only [Scan.step]
      split_ifs <;> trivial
  | outside =>
      simp only [Scan.step]
      split_ifs with hq
      · exact hq
      · trivial
      · trivial
  | inside q =>
      simp only [Scan.step]
      have hq : IsQuote q := h.resolve_left nofun
      split_ifs
      · trivial
      · exact hq
      · exact hq
  | escaped q => exact h.resolve_left nofun
  | bad => trivial

lemma scan_begun {cs : List Char} (h : cs ≠ []) : (scan .start cs).Begun := by
  induction cs using List.reverseRecOn with
  | nil => exact absurd rfl h
  | append_singleton cs c ih =>
      rw [scan_append]
      refine Scan.begun_step ?_ c
      by_cases hcs : cs = []
      · exact Or.inl (by rw [hcs]; rfl)
      · exact Or.inr (ih hcs)

/-- Two readers of one text who are out of step. -/
def Scan.Off : Scan → Scan → Prop
  | .inside q, .outside | .outside, .inside q => IsQuote q
  | .inside q, .inside q' | .escaped q, .escaped q' => IsQuote q ∧ IsQuote q' ∧ q ≠ q'
  | _, _ => False

lemma Scan.off_step {a b : Scan} (h : a.Off b) (c : Char) :
    (a.step c).Off (b.step c) ∨ a.step c = .bad ∨ b.step c = .bad := by
  -- one reader inside, one outside: a quote takes the one out or the other in
  have key : ∀ q, IsQuote q → (Scan.step (.inside q) c).Off (Scan.step .outside c) ∨
      Scan.step .outside c = .bad := by
    intro q hq
    simp only [Scan.step]
    by_cases hc : c = '\'' ∨ c = '"'
    · refine Or.inl ?_
      have hslash : c ≠ '\\' := by rcases hc with rfl | rfl <;> decide
      rw [if_pos hc]
      by_cases hcq : c = q
      · rw [if_pos hcq]
        exact hc
      · rw [if_neg hcq, if_neg hslash]
        exact ⟨hq, hc, fun h => hcq h.symm⟩
    · have hcq : c ≠ q := fun h => hc (h ▸ hq)
      rw [if_neg hc, if_neg hcq]
      by_cases hsep : c = ',' ∨ c = ' ' ∨ c = ']'
      · have hslash : c ≠ '\\' := by rcases hsep with rfl | rfl | rfl <;> decide
        rw [if_neg hslash, if_pos hsep]
        exact Or.inl hq
      · rw [if_neg hsep]
        exact Or.inr rfl
  have off_comm : ∀ a b : Scan, a.Off b → b.Off a := by
    intro a b h
    cases a <;> cases b <;> first | exact h | exact h.elim | exact ⟨h.2.1, h.1, h.2.2.symm⟩
  cases a with
  | start => exact h.elim
  | bad => exact h.elim
  | outside =>
      cases b with
      | inside q =>
          rcases key q h with h | h
          · exact Or.inl (off_comm _ _ h)
          · exact Or.inr (Or.inl h)
      | start => exact h.elim
      | outside => exact h.elim
      | escaped q => exact h.elim
      | bad => exact h.elim
  | escaped q =>
      cases b with
      | escaped q' => exact Or.inl h
      | start => exact h.elim
      | outside => exact h.elim
      | inside q => exact h.elim
      | bad => exact h.elim
  | inside q =>
      cases b with
      | outside => exact (key q h).imp_right Or.inr
      | inside q' =>
          obtain ⟨hq, hq', hne⟩ := h
          refine Or.inl ?_
          simp only [Scan.step]
          have hslash : ∀ d, IsQuote d → d ≠ '\\' := by
            rintro d (rfl | rfl) <;> decide
          by_cases h1 : c = q
          · have h2 : c ≠ q' := fun h => hne (h1.symm.trans h)
            rw [if_pos h1, if_neg h2, if_neg (hslash c (h1 ▸ hq))]
            exact hq'
          · by_cases h2 : c = q'
            · rw [if_neg h1, if_pos h2, if_neg (hslash c (h2 ▸ hq'))]
              exact hq
            · rw [if_neg h1, if_neg h2]
              split_ifs
              · exact ⟨hq, hq', hne⟩
              · exact ⟨hq, hq', hne⟩
      | start => exact h.elim
      | escaped q => exact h.elim
      | bad => exact h.elim

/-- Readers who are out of step are not both outside at the end. -/
lemma Scan.off_scan {a b : Scan} (h : a.Off b) (cs : List Char) :
    ¬(scan a cs = .outside ∧ scan b cs = .outside) := by
  induction cs generalizing a b with
  | nil =>
      rintro ⟨rfl, rfl⟩
      exact h
  | cons c cs ih =>
      rintro ⟨ha, hb⟩
      rw [scan_cons] at ha hb
      rcases off_step h c with h | h | h
      · exact ih h ⟨ha, hb⟩
      · rw [h, scan_bad] at ha
        cases ha
      · rw [h, scan_bad] at hb
        cases hb

/-- **The text of a list is not the end of another.** -/
theorem reprList_suffix {ss ts : List String} {w : List Char}
    (h : reprList printable ss = w ++ reprList printable ts) : w = [] := by
  by_contra hw
  have hbegun := scan_begun hw
  have hss : scan .start (reprList printable ss) = .outside := scan_reprList ss
  have hts : scan .start (reprList printable ts) = .outside := scan_reprList ts
  rw [h, scan_append] at hss
  rw [reprList, List.cons_append, scan_cons] at hss hts
  cases hst : scan .start w with
  | start => rw [hst] at hbegun; exact hbegun
  | outside =>
      rw [hst, show Scan.step .outside '[' = .bad by rfl, scan_bad] at hss
      cases hss
  | bad =>
      rw [hst, show Scan.step .bad '[' = .bad by rfl, scan_bad] at hss
      cases hss
  | inside q =>
      rw [hst] at hbegun hss
      have hq : IsQuote q := hbegun
      have hstep : Scan.step (.inside q) '[' = .inside q := by rcases hq with rfl | rfl <;> rfl
      rw [hstep] at hss
      exact Scan.off_scan (a := .inside q) (b := .outside) hq _ ⟨hss, hts⟩
  | escaped q =>
      rw [hst] at hbegun hss
      exact Scan.off_scan (a := .inside q) (b := .outside) hbegun _ ⟨hss, hts⟩

end Repr

end GgRelay
