import GgRelay.Lib.JsonWrite

/-!
What the reader of JSON texts makes of the texts of the writer.

* `loads_write`: **what is written is read back**, up to the image, within the limit of the depth;
  `loads_write_append_iff` says that the limit is exact, and `image_eq_of_write_eq` that the text determines
  the image;
* `write_printable`: a text is in printable ASCII.
-/

namespace GgRelay

namespace JsonRead

open Json

/-! ### Reading a string -/

lemma stringBody_append (w cs : List Char) : stringBody w.length (w ++ cs) = stringBody 0 cs := by
  induction w with
  | nil => rfl
  | cons c w ih =>
      rw [List.length_cons, List.cons_append, stringBody]
      exact ih

lemma unit_hex {n : ℕ} (h : n < 65536) (cs : List Char) : unit (hex 4 n ++ cs) = some n := by
  have htake : (hex 4 n ++ cs).take 4 = hex 4 n := List.take_left' (length_hex 4 n)
  have hall : (hex 4 n).all isHex = true :=
    List.all_eq_true.mpr fun c hc => (isHex_of_mem_hex c hc).1
  have hlower : (hex 4 n).map lowerHex = hex 4 n := by
    conv_rhs => rw [← List.map_id (hex 4 n)]
    exact List.map_congr_left fun c hc => (isHex_of_mem_hex c hc).2
  rw [unit, htake, if_pos ⟨length_hex 4 n, hall⟩, hlower, unhex_hex (w := 4) h]

lemma lowHalf_hex {n : ℕ} (hlow : 0xDC00 ≤ n) (hhigh : n < 0xE000) (cs : List Char) :
    lowHalf ('\\' :: 'u' :: hex 4 n ++ cs) = some n := by
  show (unit (hex 4 n ++ cs)).filter (fun n => decide (0xDC00 ≤ n ∧ n < 0xE000)) = some n
  rw [unit_hex (by omega)]
  simp [Option.filter, hlow, hhigh]

/-- A character is no half of a surrogate pair. -/
lemma toNat_not_surrogate (c : Char) : c.toNat < 0xD800 ∨ 0xE000 ≤ c.toNat ∧ c.toNat < 0x110000 := by
  have h := c.valid
  rcases h with h | ⟨h, h'⟩
  · exact Or.inl h
  · exact Or.inr ⟨Nat.succ_le_of_lt h, h'⟩

/-- How a character is written, and that it is read from there. -/
lemma charAt_jsonChar (c : Char) : ∃ e w, jsonChar c = e :: w ∧ e ≠ '"' ∧
    ∀ cs, charAt e (w ++ cs) = some (c, w.length) := by
  have hvalid := toNat_not_surrogate c
  have hchar : ∀ {n : ℕ}, c.toNat = n → Char.ofNat n = c := by
    rintro n rfl
    exact Char.ofNat_toNat c
  have hnumbered : ∀ w : List Char, (∀ cs, numbered (w ++ cs) = some (c, w.length)) →
      ∀ cs, charAt '\\' ('u' :: w ++ cs) = some (c, ('u' :: w).length) := by
    intro w hw cs
    show (numbered (w ++ cs)).map (fun r => (r.1, r.2 + 1)) = _
    rw [hw]
    rfl
  rw [jsonChar]
  split_ifs with h h h h h h h h
  · rcases h with rfl | rfl
    · exact ⟨'\\', ['"'], rfl, by decide, fun cs => rfl⟩
    · exact ⟨'\\', ['\\'], rfl, by decide, fun cs => rfl⟩
  · exact ⟨'\\', ['n'], rfl, by decide, fun cs => h ▸ rfl⟩
  · exact ⟨'\\', ['r'], rfl, by decide, fun cs => h ▸ rfl⟩
  · exact ⟨'\\', ['t'], rfl, by decide, fun cs => h ▸ rfl⟩
  · exact ⟨'\\', ['f'], rfl, by decide, fun cs => hchar h ▸ rfl⟩
  · exact ⟨'\\', ['b'], rfl, by decide, fun cs => hchar h ▸ rfl⟩
  · rename_i hspecial _ _ _ _ _
    rw [not_or] at hspecial
    refine ⟨c, [], rfl, hspecial.1, fun cs => ?_⟩
    rw [charAt, if_neg hspecial.2, if_neg (by omega)]
    rfl
  · refine ⟨'\\', 'u' :: hex 4 c.toNat, rfl, by decide, hnumbered _ fun cs => ?_⟩
    rw [numbered, unit_hex h, Option.map_some, if_neg (by omega), if_neg (by omega),
      Char.ofNat_toNat, length_hex]
  · have hbound : c.toNat < 0x110000 := by omega
    refine ⟨'\\', 'u' :: (hex 4 (55296 + (c.toNat - 65536) / 1024) ++
      '\\' :: 'u' :: hex 4 (56320 + (c.toNat - 65536) % 1024)), rfl, by decide,
      hnumbered _ fun cs => ?_⟩
    have hmod : (c.toNat - 65536) % 1024 < 1024 := Nat.mod_lt _ (by omega)
    have hdrop : (hex 4 (55296 + (c.toNat - 65536) / 1024) ++
        ('\\' :: 'u' :: hex 4 (56320 + (c.toNat - 65536) % 1024) ++ cs)).drop 4
        = '\\' :: 'u' :: hex 4 (56320 + (c.toNat - 65536) % 1024) ++ cs :=
      List.drop_left' (length_hex 4 _)
    rw [List.append_assoc, numbered, unit_hex (by omega), Option.map_some, if_pos (by omega), hdrop,
      lowHalf_hex (by omega) (by omega)]
    have hjoin : 0x10000 + (55296 + (c.toNat - 65536) / 1024 - 0xD800) * 1024
        + (56320 + (c.toNat - 65536) % 1024 - 0xDC00) = c.toNat := by omega
    simp only [hjoin, Char.ofNat_toNat, List.length_append, List.length_cons, length_hex]

lemma stringBody_jsonBody (s cs : List Char) :
    stringBody 0 (jsonBody s ++ '"' :: cs) = some (s, cs) := by
  induction s with
  | nil => rfl
  | cons c s ih =>
      obtain ⟨e, w, hjson, hquote, hread⟩ := charAt_jsonChar c
      rw [jsonBody, List.flatMap_cons, ← jsonBody, hjson, List.append_assoc, List.cons_append,
        stringBody, if_neg hquote, hread]
      simp only
      rw [stringBody_append, ih]
      rfl

/-- **A string is read back.** -/
lemma text_jsonStr (s : String) (cs : List Char) :
    text (jsonBody s.toList ++ '"' :: cs) = .ok (s, cs) := by
  rw [text, stringBody_jsonBody]
  simp only [String.ofList_toList]

/-! ### Reading a value -/

/-- The first character of a value that is no string and no container. -/
def AtomHead (c : Char) : Prop :=
  isBlank c = false ∧ c ≠ '"' ∧ c ≠ '[' ∧ c ≠ '{' ∧ c ≠ ']' ∧ c ≠ '}'

lemma atomHead_of_digit {c : Char} (h : c = '-' ∨ c.isDigit = true) : AtomHead c := by
  have hne : ∀ e : Char, e ≠ '-' → e.isDigit = false → c ≠ e := by
    rintro e he hdigit rfl
    rcases h with h | h
    · exact he h
    · rw [hdigit] at h
      cases h
  have hblank : isBlank c = false := by
    simp [isBlank, hne ' ' (by decide) rfl, hne '\t' (by decide) rfl, hne '\n' (by decide) rfl,
      hne '\r' (by decide) rfl]
  exact ⟨hblank, hne _ (by decide) rfl, hne _ (by decide) rfl, hne _ (by decide) rfl,
    hne _ (by decide) rfl, hne _ (by decide) rfl⟩

lemma atom_number {m : Numeral} {v : Json} (hm : numeral cs = some (m, [])) (hv : m.toJson = .ok v)
    (h : Stop r) : atom (cs ++ r) = .ok (v, r) := by
  rw [atom, numeral_append h hm]
  simp only [hv, List.nil_append]
  rfl

/-- The scalars that are read as scalars. -/
lemma atom_writeScalar {a : Scalar} (hshort : IntShort (.scalar a))
    (hfloat : ∀ repr, a = .other repr → isFloat repr = true) (h : Stop r) :
    atom (writeScalar a ++ r) = .ok (.scalar a, r) := by
  cases a with
  | null => rfl
  | bool b => cases b <;> rfl
  | int n =>
      refine atom_number (numeral_int n) ?_ h
      rw [Numeral.toJson, if_pos ⟨rfl, rfl⟩, IntText.natural_toDigits hshort]
      simp only [decide_eq_true_eq]
      split_ifs
      · rw [Int.ofNat_natAbs_of_nonpos (by omega), neg_neg]
      · rw [Int.natAbs_of_nonneg (by omega)]
  | other repr =>
      have hrepr := hfloat repr rfl
      rw [writeScalar]
      split_ifs with hnan hinf hneg htext
      · rw [hnan]
        rfl
      · rw [hinf]
        rfl
      · rw [hneg]
        rfl
      · rw [isFloatText] at htext
        cases hnum : numeral repr.toList with
        | none =>
            rw [hnum] at htext
            cases htext
        | some r' =>
            obtain ⟨m, t⟩ := r'
            rw [hnum] at htext
            cases t with
            | cons c t => cases htext
            | nil =>
                refine atom_number hnum ?_ h
                have hparts : ¬(m.fraction = [] ∧ m.exponent = []) := by
                  rw [not_and_or]
                  simpa using htext
                have hm := numeral_text hnum
                rw [List.append_nil] at hm
                rw [Numeral.toJson, if_neg hparts, hm, String.ofList_toList]
      · simp [isFloat, hnan, hinf, hneg, htext] at hrepr

lemma writeScalar_head {a : Scalar} (hfloat : ∀ repr, a = .other repr → isFloat repr = true) :
    ∃ c ds, writeScalar a = c :: ds ∧ AtomHead c := by
  have hnumber : ∀ {cs m t}, numeral cs = some (m, t) → ∃ c ds, cs = c :: ds ∧ AtomHead c := by
    intro cs m t hm
    obtain ⟨c, ds, hcs, hc⟩ := numeral_head hm
    exact ⟨c, ds, hcs, atomHead_of_digit hc⟩
  have hword : ∀ {c : Char} {ds : List Char}, c ∈ ['n', 't', 'f', 'N', 'I', '-'] →
      ∃ c' ds', c :: ds = c' :: ds' ∧ AtomHead c' := by
    intro c ds hc
    have hall : ∀ c ∈ ['n', 't', 'f', 'N', 'I', '-'], AtomHead c := by
      simp [AtomHead, isBlank]
    exact ⟨c, ds, rfl, hall c hc⟩
  cases a with
  | null => exact hword (c := 'n') (by decide)
  | bool b =>
      cases b with
      | false => exact hword (c := 'f') (by decide)
      | true => exact hword (c := 't') (by decide)
  | int n => exact hnumber (numeral_int n)
  | other repr =>
      have hrepr := hfloat repr rfl
      rw [writeScalar]
      split_ifs with hnan hinf hneg htext
      · exact hword (c := 'N') (by decide)
      · exact hword (c := 'I') (by decide)
      · exact hword (c := '-') (by decide)
      · rw [isFloatText] at htext
        cases hnum : numeral repr.toList with
        | none =>
            rw [hnum] at htext
            cases htext
        | some r' => exact hnumber hnum
      · simp [isFloat, hnan, hinf, hneg, htext] at hrepr

lemma skip_cons {c : Char} (h : isBlank c = false) (cs : List Char) : skip (c :: cs) = c :: cs :=
  List.dropWhile_cons_of_neg (by simp [h])

lemma skip_pad {pad : List Char} (hpad : ∀ c ∈ pad, c = ' ') (cs : List Char) :
    skip (pad ++ cs) = skip cs := by
  induction pad with
  | nil => rfl
  | cons c pad ih =>
      obtain ⟨rfl, hrest⟩ := List.forall_mem_cons.mp hpad
      exact ih hrest

/-- A text that begins with a character that is not blank and closes no container. -/
def Begins (cs : List Char) : Prop :=
  ∃ c ds, cs = c :: ds ∧ isBlank c = false ∧ c ≠ ']' ∧ c ≠ '}'

lemma Begins.append (h : Begins cs) (r : List Char) : Begins (cs ++ r) := by
  obtain ⟨c, ds, rfl, hc⟩ := h
  exact ⟨c, ds ++ r, rfl, hc⟩

lemma Begins.skip_eq (h : Begins cs) : skip cs = cs := by
  obtain ⟨c, ds, rfl, hc, -⟩ := h
  exact skip_cons hc ds

section Members

variable {α : Type} {pad : List Char} (hpad : ∀ c ∈ pad, c = ' ') {close : Char}
  (hclose : close = ']' ∨ close = '}') {member : List Char → Reading α}

include hclose in
lemma next_close (r : List Char) : next close (close :: r) = .ok (false, r) := by
  have hblank : isBlank close = false := by rcases hclose with rfl | rfl <;> rfl
  rw [next, skip_cons hblank]
  exact if_pos rfl

include hclose hpad in
lemma next_comma (h : Begins cs) : next close (',' :: pad ++ cs) = .ok (true, cs) := by
  have hcomma : ',' ≠ close := by rcases hclose with rfl | rfl <;> decide
  rw [next, List.cons_append, skip_cons rfl]
  simp only [if_neg hcomma, if_pos, skip_pad hpad, h.skip_eq]

/-- A text that a reader reads as a value, wherever it stops. -/
def Reads (member : List Char → Reading α) (t : List Char) (a : α) : Prop :=
  Begins t ∧ ∀ r, Stop r → member (t ++ r) = .ok (a, r)

include hclose hpad in
/-- **The members of a container are read in turn.** -/
lemma sequence_intercalate {ts : List (List Char)} {as : List α}
    (h : List.Forall₂ (Reads member) ts as) (hne : ts ≠ []) {n : ℕ} (hn : ts.length ≤ n)
    (r : List Char) :
    sequence close member n ((',' :: pad).intercalate ts ++ close :: r) = .ok (as, r) := by
  have hstop : Stop (close :: r) := by
    rcases hclose with rfl | rfl <;> exact ⟨rfl, by decide, by decide, by decide, by decide, by decide⟩
  induction h generalizing n with
  | nil => exact absurd rfl hne
  | @cons t a ts as ht hts ih =>
      obtain ⟨n, rfl⟩ : ∃ k, n = k + 1 := ⟨n - 1, by simp at hn; omega⟩
      cases hts with
      | nil =>
          rw [List.intercalate_singleton, sequence, ht.2 _ hstop]
          simp only
          rw [next_close hclose]
      | @cons u b us bs hu hus =>
          have hcomma : Stop ((',' :: pad) ++ ((',' :: pad).intercalate (u :: us) ++ close :: r)) :=
            ⟨rfl, by decide, by decide, by decide, by decide, by decide⟩
          have hbegins : Begins ((',' :: pad).intercalate (u :: us) ++ close :: r) := by
            cases us with
            | nil =>
                rw [List.intercalate_singleton]
                exact hu.1.append _
            | cons w us =>
                rw [List.intercalate_cons_cons, List.append_assoc, List.append_assoc]
                exact hu.1.append _
          rw [List.intercalate_cons_cons, List.append_assoc, List.append_assoc, sequence,
            ht.2 _ hcomma]
          simp only
          rw [next_comma hpad hclose hbegins]
          simp only
          rw [ih (by simp) (by simpa using hn)]

include hclose hpad in
lemma container_intercalate {ts : List (List Char)} {as : List α}
    (h : List.Forall₂ (Reads member) ts as) (r : List Char) :
    container close member ((',' :: pad).intercalate ts ++ close :: r) = .ok (as, r) := by
  cases h with
  | nil =>
      have hblank : isBlank close = false := by rcases hclose with rfl | rfl <;> rfl
      rw [List.intercalate_nil, List.nil_append, container, skip_cons hblank]
      exact if_pos rfl
  | @cons t a ts as ht hts =>
      have hread := fun n hn => sequence_intercalate hpad hclose (List.Forall₂.cons ht hts)
        (List.cons_ne_nil _ _) (n := n) hn r
      obtain ⟨c, ds, hcs, hc, hbracket, hbrace⟩ :
          Begins ((',' :: pad).intercalate (t :: ts) ++ close :: r) := by
        cases ts with
        | nil =>
            rw [List.intercalate_singleton]
            exact ht.1.append _
        | cons u ts =>
            rw [List.intercalate_cons_cons, List.append_assoc, List.append_assoc]
            exact ht.1.append _
      have hlength : ∀ us : List (List Char), (∀ u ∈ us, Begins u) →
          us.length ≤ ((',' :: pad).intercalate us).length := by
        intro us hus
        induction us with
        | nil => exact le_rfl
        | cons u us ih =>
            obtain ⟨⟨e, es, rfl, -⟩, hrest⟩ := List.forall_mem_cons.mp hus
            have ih := ih hrest
            cases us with
            | nil => simp [List.intercalate_singleton]
            | cons w us =>
                rw [List.intercalate_cons_cons]
                simp only [List.length_append, List.length_cons] at ih ⊢
                omega
      have hbegins : ∀ u ∈ t :: ts, Begins u := by
        have hall : ∀ {us : List (List Char)} {bs : List α}, List.Forall₂ (Reads member) us bs →
            ∀ u ∈ us, Begins u := by
          intro us bs h
          induction h with
          | nil => exact List.forall_mem_nil _
          | cons hu _ ih => exact List.forall_mem_cons.mpr ⟨hu.1, ih⟩
        exact hall (List.Forall₂.cons ht hts)
      have hfuel := hlength _ hbegins
      have hcons := congrArg List.length hcs
      rw [hcs] at hread
      rw [hcs, container, skip_cons hc]
      have hne : c ≠ close := by rcases hclose with rfl | rfl <;> assumption
      simp only
      rw [if_neg hne]
      refine hread _ ?_
      simp only [List.length_append, List.length_cons] at hcons hfuel ⊢
      omega

end Members

/-! ### The characters of a text -/

lemma jsonChar_printable (c : Char) : ∀ d ∈ jsonChar c, Printable d := by
  have hcode : ∀ n, ∀ d ∈ '\\' :: 'u' :: hex 4 n, Printable d := by
    intro n
    simp only [List.forall_mem_cons]
    exact ⟨by decide, by decide, fun d hd => printable_of_isAlphanum (isAlphanum_of_mem_hex d hd)⟩
  rw [jsonChar]
  split_ifs with h h h h h h h h
  · rcases h with rfl | rfl <;> exact printable_of_all rfl
  · exact printable_of_all rfl
  · exact printable_of_all rfl
  · exact printable_of_all rfl
  · exact printable_of_all rfl
  · exact printable_of_all rfl
  · intro d hd
    rw [List.mem_singleton.mp hd]
    exact h
  · exact hcode _
  · intro d hd
    exact (List.mem_append.mp hd).elim (hcode _ d) (hcode _ d)

lemma jsonStr_printable (s : String) : ∀ c ∈ jsonStr s, Printable c := by
  have hbody : ∀ c ∈ jsonBody s.toList, Printable c := by
    intro c hc
    obtain ⟨e, -, he⟩ := List.mem_flatMap.mp hc
    exact jsonChar_printable e c he
  rw [jsonStr, List.cons_append, List.forall_mem_cons, List.forall_mem_append]
  exact ⟨by decide, hbody, printable_of_all rfl⟩

lemma writeScalar_printable (a : Scalar) : ∀ c ∈ writeScalar a, Printable c := by
  cases a with
  | null => exact @printable_of_all "null".toList rfl
  | bool b =>
      cases b with
      | false => exact @printable_of_all "false".toList rfl
      | true => exact @printable_of_all "true".toList rfl
  | int n => exact numeral_printable (numeral_int n)
  | other repr =>
      rw [writeScalar]
      split_ifs with hnan hinf hneg htext
      · exact @printable_of_all "NaN".toList rfl
      · exact @printable_of_all "Infinity".toList rfl
      · exact @printable_of_all "-Infinity".toList rfl
      · rw [isFloatText] at htext
        cases hnum : numeral repr.toList with
        | none =>
            rw [hnum] at htext
            cases htext
        | some r' =>
            obtain ⟨m, t⟩ := r'
            rw [hnum] at htext
            cases t with
            | cons c t => cases htext
            | nil => exact numeral_printable hnum
      · exact jsonStr_printable repr

lemma intercalate_printable {pad : List Char} (hpad : ∀ c ∈ pad, c = ' ') {ts : List (List Char)}
    (h : ∀ t ∈ ts, ∀ c ∈ t, Printable c) : ∀ c ∈ (',' :: pad).intercalate ts, Printable c := by
  induction ts with
  | nil => exact nofun
  | cons t ts ih =>
      obtain ⟨ht, hts⟩ := List.forall_mem_cons.mp h
      cases ts with
      | nil =>
          rw [List.intercalate_singleton]
          exact ht
      | cons u ts =>
          rw [List.intercalate_cons_cons, List.forall_mem_append, List.forall_mem_append,
            List.forall_mem_cons]
          refine ⟨⟨ht, by decide, fun c hc => ?_⟩, ih hts⟩
          rw [hpad c hc]
          decide

/-- **A text is in printable ASCII.** -/
theorem write_printable {pad : List Char} (hpad : ∀ c ∈ pad, c = ' ') (v : Json) :
    ∀ c ∈ write pad v, Printable c := by
  induction v using Json.rec_members with
  | scalar a => exact writeScalar_printable a
  | str s => exact jsonStr_printable s
  | list vs ih | tuple vs ih =>
      rw [write, writeMembers_eq_map, List.cons_append, List.forall_mem_cons,
        List.forall_mem_append]
      refine ⟨by decide, intercalate_printable hpad fun t ht => ?_, printable_of_all rfl⟩
      obtain ⟨v, hv, rfl⟩ := List.mem_map.mp ht
      exact ih v hv
  | mapping d ih =>
      rw [write, writeItems_eq_map, List.cons_append, List.forall_mem_cons, List.forall_mem_append]
      refine ⟨by decide, intercalate_printable hpad fun t ht => ?_, printable_of_all rfl⟩
      obtain ⟨kv, hkv, rfl⟩ := List.mem_map.mp ht
      rw [writeItem, List.forall_mem_append, List.forall_mem_append, List.forall_mem_cons]
      refine ⟨⟨jsonStr_printable kv.1, by decide, fun c hc => ?_⟩, ih kv hkv⟩
      rw [hpad c hc]
      decide

/-! ### Reading a whole text -/

/-- Keys that are distinct are assigned in their order. -/
lemma foldl_assign {d : List (String × Json)} (h : (d.map Prod.fst).Nodup) :
    d.foldl assign [] = d := by
  have happend : ∀ (d e : List (String × Json)), ((e ++ d).map Prod.fst).Nodup →
      d.foldl assign e = e ++ d := by
    intro d
    induction d with
    | nil => simp
    | cons kv d ih =>
        intro e hnodup
        have hnew : kv.1 ∉ e.map Prod.fst := by
          rw [List.map_append, List.map_cons] at hnodup
          exact fun hmem => (List.nodup_append.mp hnodup).2.2 _ hmem _ List.mem_cons_self rfl
        have hassoc : e ++ kv :: d = e ++ [kv] ++ d := by simp
        rw [List.foldl_cons, assign, if_neg hnew, hassoc]
        exact ih (e ++ [kv]) (hassoc ▸ hnodup)
  exact happend d [] h

lemma jsonStr_begins (s : String) : Begins (jsonStr s) :=
  ⟨'"', _, rfl, rfl, by decide, by decide⟩

lemma write_begins {pad : List Char} (v : Json) : Begins (write pad v) := by
  cases v with
  | scalar a =>
      by_cases hfloat : ∀ repr, a = .other repr → isFloat repr = true
      · obtain ⟨c, ds, hcs, hblank, -, -, -, hbracket, hbrace⟩ := writeScalar_head hfloat
        exact ⟨c, ds, hcs, hblank, hbracket, hbrace⟩
      · simp only [not_forall] at hfloat
        obtain ⟨repr, rfl, hrepr⟩ := hfloat
        simp only [isFloat, Bool.or_eq_true, decide_eq_true_eq, not_or] at hrepr
        rw [write, writeScalar, if_neg hrepr.1.1.1, if_neg hrepr.1.1.2, if_neg hrepr.1.2,
          if_neg hrepr.2]
        exact jsonStr_begins repr
  | str s => exact jsonStr_begins s
  | list vs => exact ⟨'[', _, rfl, rfl, by decide, by decide⟩
  | tuple vs => exact ⟨'[', _, rfl, rfl, by decide, by decide⟩
  | mapping d => exact ⟨'{', _, rfl, rfl, by decide, by decide⟩

lemma valueOver_string (member : Option (List Char → Reading Json)) (s : String) (r : List Char) :
    valueOver member (jsonStr s ++ r) = .ok (.str s, r) := by
  have hcons : jsonStr s ++ r = '"' :: (jsonBody s.toList ++ '"' :: r) := by simp [jsonStr]
  rw [hcons, valueOver, if_pos rfl, text_jsonStr]
  rfl

lemma value_string (d : ℕ) (s : String) (r : List Char) :
    value d (jsonStr s ++ r) = .ok (.str s, r) := by
  cases d <;> exact valueOver_string _ s r

lemma value_atom (d : ℕ) {c : Char} (h : AtomHead c) (ds : List Char) :
    value d (c :: ds) = atom (c :: ds) := by
  obtain ⟨-, hquote, hbracket, hbrace, -⟩ := h
  cases d <;> rw [value, valueOver, if_neg hquote, if_neg hbracket, if_neg hbrace]

section Value

variable {pad : List Char} (hpad : ∀ c ∈ pad, c = ' ')

lemma value_scalar {a : Scalar} (h : IntShort (.scalar a)) (d : ℕ) {r : List Char} (hr : Stop r) :
    value d (write pad (.scalar a) ++ r) = .ok (image (.scalar a), r) := by
  by_cases hfloat : ∀ repr, a = .other repr → isFloat repr = true
  · have hatom := atom_writeScalar h hfloat hr
    have himage : image (.scalar a) = .scalar a := by
      cases a with
      | other repr => rw [image, if_pos (hfloat repr rfl)]
      | null | bool b | int n => rfl
    obtain ⟨c, ds, hcs, hc⟩ := writeScalar_head hfloat
    rw [himage, write]
    rw [hcs] at hatom ⊢
    rw [List.cons_append, value_atom d hc, ← List.cons_append, hatom]
  · simp only [not_forall] at hfloat
    obtain ⟨repr, rfl, hrepr⟩ := hfloat
    have himage : image (.scalar (.other repr)) = .str repr := by rw [image, if_neg hrepr]
    simp only [isFloat, Bool.or_eq_true, decide_eq_true_eq, not_or] at hrepr
    rw [write, writeScalar, if_neg hrepr.1.1.1, if_neg hrepr.1.1.2, if_neg hrepr.1.2,
      if_neg hrepr.2, himage]
    exact value_string d repr r

include hpad in
lemma item_writeItem {d : ℕ} {kv : String × Json} {r : List Char}
    (h : value d (write pad kv.2 ++ r) = .ok (image kv.2, r)) :
    item (value d) (writeItem pad kv ++ r) = .ok ((kv.1, image kv.2), r) := by
  have hcons : writeItem pad kv ++ r
      = '"' :: (jsonBody kv.1.toList ++ '"' :: ':' :: (pad ++ (write pad kv.2 ++ r))) := by
    simp [writeItem, jsonStr]
  have hskip : skip (pad ++ (write pad kv.2 ++ r)) = write pad kv.2 ++ r := by
    rw [skip_pad hpad, ((write_begins kv.2).append r).skip_eq]
  rw [hcons, item, if_pos rfl, text_jsonStr]
  simp only
  rw [skip_cons rfl]
  simp only [if_pos, hskip, h]
  rfl

include hpad in
/-- **A value that is written is read back at the front of a text**, if the levels suffice. -/
theorem value_write (v : Json) (hkeys : All KeysDistinct v) (hshort : All IntShort v) :
    ∀ d, depth v ≤ d → ∀ r, Stop r → value d (write pad v ++ r) = .ok (image v, r) := by
  induction v using Json.rec_members with
  | scalar a => exact fun d _ r hr => value_scalar hshort d hr
  | str s => exact fun d _ r _ => value_string d s r
  | list vs ih | tuple vs ih =>
      intro d hd r hr
      rw [All, allMembers_iff] at hkeys hshort
      rw [depth, levels] at hd
      obtain ⟨d, rfl⟩ : ∃ k, d = k + 1 := ⟨d - 1, by omega⟩
      rw [Nat.add_le_add_iff_right, levelsMembers_le_iff] at hd
      have hreads : List.Forall₂ (Reads (value d)) (vs.map (write pad)) (vs.map image) := by
        rw [List.forall₂_map_left_iff, List.forall₂_map_right_iff, List.forall₂_same]
        exact fun v hv => ⟨write_begins v, ih v hv (hkeys.2 v hv) (hshort.2 v hv) d (hd v hv)⟩
      rw [write, writeMembers_eq_map, image, imageMembers_eq_map, List.cons_append,
        List.cons_append, List.append_assoc, value, valueOver, if_neg (by decide), if_pos rfl, Option.elim_some, array,
        List.singleton_append, container_intercalate hpad (Or.inl rfl) hreads]
      rfl
  | mapping m ih =>
      intro d hd r hr
      rw [All, allItems_iff] at hkeys hshort
      rw [depth, levels] at hd
      obtain ⟨d, rfl⟩ : ∃ k, d = k + 1 := ⟨d - 1, by omega⟩
      rw [Nat.add_le_add_iff_right, levelsItems_le_iff] at hd
      have hreads : List.Forall₂ (Reads (item (value d))) (m.map (writeItem pad))
          (m.map fun kv => (kv.1, image kv.2)) := by
        rw [List.forall₂_map_left_iff, List.forall₂_map_right_iff, List.forall₂_same]
        refine fun kv hkv => ⟨(((jsonStr_begins kv.1).append _).append _), fun r hr => ?_⟩
        exact item_writeItem hpad (ih kv hkv (hkeys.2 kv hkv) (hshort.2 kv hkv) d (hd kv hkv) r hr)
      have hnodup : ((m.map fun kv => (kv.1, image kv.2)).map Prod.fst).Nodup := by
        rw [List.map_map]
        exact hkeys.1
      rw [write, writeItems_eq_map, image, imageItems_eq_map, List.cons_append, List.cons_append,
        List.append_assoc, value, valueOver, if_neg (by decide), if_neg (by decide), if_pos rfl, Option.elim_some,
        object, List.singleton_append, container_intercalate hpad (Or.inr rfl) hreads]
      show Except.ok (mappingOf (m.map fun kv => (kv.1, image kv.2)), r) = _
      rw [mappingOf, foldl_assign hnodup]

include hpad in
/-- **What is written is read back**, up to the image, with blanks after it. -/
theorem loads_write_append {v : Json} (hkeys : All KeysDistinct v) (hshort : All IntShort v) {d : ℕ}
    (hd : depth v ≤ d) {r : List Char} (hr : ∀ c ∈ r, isBlank c = true) :
    loads d (write pad v ++ r) = .ok (image v) := by
  have hstop : Stop r := by
    cases r with
    | nil => trivial
    | cons c r =>
        have hc := hr c List.mem_cons_self
        simp only [isBlank, Bool.or_eq_true, decide_eq_true_eq] at hc
        rcases hc with ((rfl | rfl) | rfl) | rfl <;>
          exact ⟨rfl, by decide, by decide, by decide, by decide, by decide⟩
  have hhead : (write pad v ++ r).head? ≠ some (Char.ofNat 0xFEFF) := by
    obtain ⟨c, cs, hcs, -⟩ := @write_begins pad v
    have hprintable : Printable c := write_printable hpad v c (by rw [hcs]; exact List.mem_cons_self)
    rw [hcs, List.cons_append, List.head?_cons, Ne, Option.some_inj]
    rintro rfl
    exact absurd hprintable.2 (by decide)
  rw [loads, if_neg hhead, ((write_begins v).append r).skip_eq,
    value_write hpad v hkeys hshort d hd r hstop]
  exact if_pos (List.dropWhile_eq_nil_iff.mpr hr)

include hpad in
/-- What is written is read back, up to the image. -/
theorem loads_write {v : Json} (hkeys : All KeysDistinct v) (hshort : All IntShort v) {d : ℕ}
    (hd : depth v ≤ d) : loads d (write pad v) = .ok (image v) := by
  have hread := loads_write_append hpad hkeys hshort hd (List.forall_mem_nil _)
  rwa [List.append_nil] at hread

include hpad in
/-- **The text determines the image.** -/
theorem image_eq_of_write_eq {v w : Json} (hv : All KeysDistinct v) (hv' : All IntShort v)
    (hw : All KeysDistinct w) (hw' : All IntShort w) (h : write pad v = write pad w) :
    image v = image w := by
  have hreadv := loads_write hpad hv hv' (le_max_left (depth v) (depth w))
  have hreadw := loads_write hpad hw hw' (le_max_right (depth v) (depth w))
  rw [h] at hreadv
  exact Except.ok.inj (hreadv.symm.trans hreadw)

end Value

/-! ### The limit of the depth is exact -/

lemma depth_image (v : Json) : depth (image v) = depth v := by
  induction v using Json.rec_members with
  | scalar a =>
      cases a with
      | other repr =>
          rw [image]
          split_ifs <;> rfl
      | null | bool b | int n => rfl
  | str s => rfl
  | list vs ih | tuple vs ih =>
      have hmembers : levelsMembers (fun _ => 0) (vs.map image) = levelsMembers (fun _ => 0) vs := by
        induction vs with
        | nil => rfl
        | cons v vs ih' =>
            obtain ⟨hv, hvs⟩ := List.forall_mem_cons.mp ih
            rw [List.map_cons, levelsMembers, levelsMembers, ih' hvs]
            exact congrArg (max · _) hv
      rw [image, imageMembers_eq_map, depth, depth, levels, levels, hmembers]
  | mapping d ih =>
      have hitems : levelsItems (fun _ => 0) (d.map fun kv => (kv.1, image kv.2))
          = levelsItems (fun _ => 0) d := by
        induction d with
        | nil => rfl
        | cons kv d ih' =>
            obtain ⟨hv, hd⟩ := List.forall_mem_cons.mp ih
            rw [List.map_cons, levelsItems, levelsItems, ih' hd]
            exact congrArg (max · _) hv
      rw [image, imageItems_eq_map, depth, depth, levels, levels, hitems]

lemma forall_mem_assign {P : String × Json → Prop} {d : List (String × Json)}
    {kv : String × Json} (hd : ∀ p ∈ d, P p) (hkv : P kv) : ∀ p ∈ assign d kv, P p := by
  rw [assign]
  split_ifs
  · intro p hp
    obtain ⟨q, hq, rfl⟩ := List.mem_map.mp hp
    split_ifs
    · exact hkv
    · exact hd q hq
  · intro p hp
    rcases List.mem_append.mp hp with hp | hp
    · exact hd p hp
    · rw [List.mem_singleton.mp hp]
      exact hkv

section Found

variable {α : Type} {P : α → Prop} {close : Char} {member : List Char → Reading α}

lemma forall_mem_sequence (h : ∀ cs a r, member cs = .ok (a, r) → P a) {n : ℕ} {cs r : List Char}
    {as : List α} (heq : sequence close member n cs = .ok (as, r)) : ∀ a ∈ as, P a := by
  induction n generalizing cs as with
  | zero => cases heq
  | succ n ih =>
      rw [sequence] at heq
      cases hmember : member cs with
      | error e =>
          rw [hmember] at heq
          cases heq
      | ok q =>
          have hq := h _ _ _ hmember
          rw [hmember] at heq
          simp only at heq
          cases hnext : next close q.2 with
          | error e =>
              rw [hnext] at heq
              cases heq
          | ok q' =>
              obtain ⟨more, ds⟩ := q'
              rw [hnext] at heq
              cases more with
              | false =>
                  cases heq
                  simpa using hq
              | true =>
                  simp only at heq
                  cases hrest : sequence close member n ds with
                  | error e =>
                      rw [hrest] at heq
                      cases heq
                  | ok q'' =>
                      rw [hrest] at heq
                      cases heq
                      exact List.forall_mem_cons.mpr ⟨hq, ih hrest⟩

lemma forall_mem_container (h : ∀ cs a r, member cs = .ok (a, r) → P a) {cs r : List Char}
    {as : List α} (heq : container close member cs = .ok (as, r)) : ∀ a ∈ as, P a := by
  rw [container] at heq
  cases hskip : skip cs with
  | nil =>
      rw [hskip] at heq
      cases heq
  | cons c ds =>
      rw [hskip] at heq
      simp only at heq
      split_ifs at heq
      · cases heq
        exact List.forall_mem_nil P
      · exact forall_mem_sequence h heq

end Found

lemma depth_of_item {read : List Char → Reading Json} {n : ℕ}
    (h : ∀ cs v r, read cs = .ok (v, r) → depth v ≤ n) {cs r : List Char} {kv : String × Json}
    (heq : item read cs = .ok (kv, r)) : depth kv.2 ≤ n := by
  cases cs with
  | nil => cases heq
  | cons c cs =>
      rw [item] at heq
      split_ifs at heq
      cases htext : text cs with
      | error e =>
          rw [htext] at heq
          cases heq
      | ok q =>
          rw [htext] at heq
          simp only at heq
          cases hskip : skip q.2 with
          | nil =>
              rw [hskip] at heq
              cases heq
          | cons c ds =>
              rw [hskip] at heq
              simp only at heq
              split_ifs at heq
              cases hread : read (skip ds) with
              | error e =>
                  rw [hread] at heq
                  cases heq
              | ok q' =>
                  rw [hread] at heq
                  cases heq
                  exact h _ _ _ hread

lemma depth_of_atom {cs r : List Char} {v : Json} (h : atom cs = .ok (v, r)) : depth v = 0 := by
  rw [atom] at h
  cases hnum : numeral cs with
  | none =>
      rw [hnum, word] at h
      cases hfind : words.find? fun w => w.1.isPrefixOf cs with
      | none =>
          rw [hfind] at h
          cases h
      | some w =>
          rw [hfind] at h
          cases h
          have hall : ∀ w ∈ words, depth w.2 = 0 := by simp [words, depth, levels]
          exact hall w (List.mem_of_find?_eq_some hfind)
  | some q =>
      rw [hnum] at h
      cases hjson : q.1.toJson with
      | error e =>
          simp only [hjson] at h
          cases h
      | ok v' =>
          simp only [hjson] at h
          cases h
          rw [Numeral.toJson] at hjson
          cases hnat : IntText.natural q.1.whole <;> rw [hnat] at hjson <;> split_ifs at hjson <;>
            cases hjson <;> rfl

/-- A value that is read has no more levels than there were. -/
lemma depth_of_value {d : ℕ} {cs r : List Char} {v : Json} (h : value d cs = .ok (v, r)) :
    depth v ≤ d := by
  induction d generalizing cs r v with
  | zero =>
      cases cs with
      | nil => cases h
      | cons c cs =>
          rw [value, valueOver] at h
          split_ifs at h
          · cases htext : text cs with
            | error e =>
                rw [htext] at h
                cases h
            | ok q =>
                rw [htext] at h
                cases h
                exact le_rfl
          · cases h
          · cases h
          · exact (depth_of_atom h).le
  | succ d ih =>
      cases cs with
      | nil => cases h
      | cons c cs =>
          rw [value, valueOver] at h
          split_ifs at h
          · cases htext : text cs with
            | error e =>
                rw [htext] at h
                cases h
            | ok q =>
                rw [htext] at h
                cases h
                exact Nat.zero_le _
          · rw [Option.elim_some, array] at h
            cases hread : container ']' (value d) cs with
            | error e =>
                rw [hread] at h
                cases h
            | ok q =>
                rw [hread] at h
                cases h
                have hall := forall_mem_container (P := fun v => depth v ≤ d)
                  (fun _ _ _ heq => ih heq) hread
                rw [depth, levels, Nat.add_le_add_iff_right, levelsMembers_le_iff]
                exact hall
          · rw [Option.elim_some, object] at h
            cases hread : container '}' (item (value d)) cs with
            | error e =>
                rw [hread] at h
                cases h
            | ok q =>
                rw [hread] at h
                cases h
                have hall := forall_mem_container (P := fun kv : String × Json => depth kv.2 ≤ d)
                  (fun _ _ _ heq => depth_of_item (fun _ _ _ heq => ih heq) heq) hread
                have hfold : ∀ (kvs e : List (String × Json)), (∀ kv ∈ kvs, depth kv.2 ≤ d) →
                    (∀ kv ∈ e, depth kv.2 ≤ d) → ∀ kv ∈ kvs.foldl assign e, depth kv.2 ≤ d := by
                  intro kvs
                  induction kvs with
                  | nil => exact fun e _ he => he
                  | cons kv kvs ih' =>
                      intro e hkvs he
                      obtain ⟨hkv, hkvs⟩ := List.forall_mem_cons.mp hkvs
                      exact ih' _ hkvs (forall_mem_assign he hkv)
                rw [mappingOf, depth, levels, Nat.add_le_add_iff_right, levelsItems_le_iff]
                exact hfold _ _ hall (List.forall_mem_nil _)
          · exact (depth_of_atom h).trans_le (Nat.zero_le _)

lemma depth_of_loads {d : ℕ} {cs : List Char} {v : Json} (h : loads d cs = .ok v) : depth v ≤ d := by
  rw [loads] at h
  split_ifs at h
  cases hvalue : value d (skip cs) with
  | error e =>
      rw [hvalue] at h
      cases h
  | ok q =>
      rw [hvalue] at h
      simp only at h
      split_ifs at h
      cases h
      exact depth_of_value hvalue

/-- **A text of the writer is read exactly if the levels suffice**, and then as the image. -/
theorem loads_write_append_iff {pad : List Char} (hpad : ∀ c ∈ pad, c = ' ') {v w : Json}
    (hkeys : All KeysDistinct v) (hshort : All IntShort v) {d : ℕ} {r : List Char}
    (hr : ∀ c ∈ r, isBlank c = true) :
    loads d (write pad v ++ r) = .ok w ↔ depth v ≤ d ∧ w = image v := by
  constructor
  · intro h
    have himage := loads_write_append hpad hkeys hshort (le_max_right d (depth v)) hr
    rw [loads_mono (le_max_left d (depth v)) h] at himage
    cases himage
    rw [← depth_image v]
    exact ⟨depth_of_loads h, rfl⟩
  · rintro ⟨hd, rfl⟩
    exact loads_write_append hpad hkeys hshort hd hr

theorem loads_write_iff {pad : List Char} (hpad : ∀ c ∈ pad, c = ' ') {v w : Json}
    (hkeys : All KeysDistinct v) (hshort : All IntShort v) {d : ℕ} :
    loads d (write pad v) = .ok w ↔ depth v ≤ d ∧ w = image v := by
  have hread := @loads_write_append_iff pad hpad v w hkeys hshort d [] nofun
  rwa [List.append_nil] at hread

/-- Without the levels a text of the writer is too deep. -/
theorem loads_write_tooDeep {pad : List Char} (hpad : ∀ c ∈ pad, c = ' ') {v : Json}
    (hkeys : All KeysDistinct v) (hshort : All IntShort v) {d : ℕ} :
    loads d (write pad v) = .error .tooDeep ↔ d < depth v := by
  constructor
  · intro h
    by_contra hd
    rw [loads_write hpad hkeys hshort (Nat.le_of_not_lt hd)] at h
    cases h
  · intro hd
    refine (loads_below hd.le (write pad v)).resolve_left fun h => ?_
    rw [loads_write hpad hkeys hshort le_rfl, loads_write_iff hpad hkeys hshort] at h
    omega

end JsonRead

end GgRelay
