import Mathlib.Data.List.TakeWhile
import Mathlib.Tactic

/-!
The numbers of JSON as text: a sign, digits without a leading zero, a fraction and an exponent.

* `numeral` reads the number at the front of a text, in its parts; `numeral_text` puts them together
  again, `numeral_append` says that a number ends where nothing continues it;
* `numeral_int` reads the text of an integer;
* `numeral_printable`: the text of a number is in printable ASCII.
-/

namespace GgRelay.JsonRead

/-- The digits at the front of a text. -/
def spanDigits (cs : List Char) : List Char × List Char :=
  (cs.takeWhile Char.isDigit, cs.dropWhile Char.isDigit)

/-- The digits before the point: no zero before others. -/
def wholePart : List Char → Option (List Char × List Char)
  | [] => none
  | c :: cs => if c = '0' then some ([c], cs) else if c.isDigit then some (spanDigits (c :: cs)) else none

/-- Digits after what introduces them; without digits nothing is read. -/
def digitsAfter (intro : List Char) (cs : List Char) : List Char × List Char :=
  if (spanDigits cs).1 = [] then ([], intro ++ cs) else (intro ++ (spanDigits cs).1, (spanDigits cs).2)

/-- The point and the digits after it. -/
def fraction : List Char → List Char × List Char
  | [] => ([], [])
  | c :: cs => if c = '.' then digitsAfter [c] cs else ([], c :: cs)

/-- A sign, if there is one, and digits, after the letter of an exponent. -/
def signedAfter (e : Char) : List Char → List Char × List Char
  | [] => ([], [e])
  | s :: ds => if s = '+' ∨ s = '-' then digitsAfter [e, s] ds else digitsAfter [e] (s :: ds)

/-- The exponent. -/
def exponent : List Char → List Char × List Char
  | [] => ([], [])
  | c :: cs => if c = 'e' ∨ c = 'E' then signedAfter c cs else ([], c :: cs)

/-- The parts of a number. -/
structure Numeral where
  minus : Bool
  whole : List Char
  /-- with the point -/
  fraction : List Char
  exponent : List Char

/-- A number without its sign. -/
def unsigned (minus : Bool) (cs : List Char) : Option (Numeral × List Char) :=
  (wholePart cs).map fun r =>
    (⟨minus, r.1, (fraction r.2).1, (exponent (fraction r.2).2).1⟩, (exponent (fraction r.2).2).2)

/-- The number at the front of a text. -/
def numeral : List Char → Option (Numeral × List Char)
  | [] => none
  | c :: cs => if c = '-' then unsigned true cs else unsigned false (c :: cs)

/-- The text of a number. -/
def Numeral.text (m : Numeral) : List Char :=
  (if m.minus then ['-'] else []) ++ m.whole ++ m.fraction ++ m.exponent

variable {cs r : List Char}

lemma length_spanDigits (cs : List Char) : (spanDigits cs).2.length ≤ cs.length :=
  (List.dropWhile_suffix _).length_le

lemma length_digitsAfter (intro cs : List Char) :
    (digitsAfter intro cs).2.length ≤ (intro ++ cs).length := by
  rw [digitsAfter]
  split_ifs
  · exact le_rfl
  · exact (length_spanDigits cs).trans (List.length_append ▸ Nat.le_add_left _ _)

lemma length_fraction (cs : List Char) : (fraction cs).2.length ≤ cs.length := by
  cases cs with
  | nil => exact le_rfl
  | cons c cs =>
      rw [fraction]
      split_ifs
      · exact length_digitsAfter [c] cs
      · exact le_rfl

lemma length_signedAfter (e : Char) (cs : List Char) :
    (signedAfter e cs).2.length ≤ (e :: cs).length := by
  cases cs with
  | nil => exact le_rfl
  | cons s ds =>
      rw [signedAfter]
      split_ifs
      · exact length_digitsAfter [e, s] ds
      · exact length_digitsAfter [e] (s :: ds)

lemma length_exponent (cs : List Char) : (exponent cs).2.length ≤ cs.length := by
  cases cs with
  | nil => exact le_rfl
  | cons c cs =>
      rw [exponent]
      split_ifs
      · exact length_signedAfter c cs
      · exact le_rfl

lemma length_wholePart {cs w rest : List Char} (h : wholePart cs = some (w, rest)) :
    rest.length < cs.length := by
  cases cs with
  | nil => cases h
  | cons c cs =>
      rw [wholePart] at h
      split_ifs at h with hzero hdigit
      · cases h
        exact Nat.lt_succ_self _
      · cases h
        rw [List.dropWhile_cons_of_pos hdigit]
        exact Nat.lt_succ_of_le (length_spanDigits cs)

lemma length_unsigned {minus : Bool} {m : Numeral} {cs rest : List Char}
    (h : unsigned minus cs = some (m, rest)) : rest.length < cs.length := by
  obtain ⟨⟨w, tail⟩, hwhole, heq⟩ := Option.map_eq_some_iff.mp h
  cases heq
  exact ((length_exponent _).trans (length_fraction tail)).trans_lt (length_wholePart hwhole)

lemma length_numeral {m : Numeral} {cs rest : List Char} (h : numeral cs = some (m, rest)) :
    rest.length < cs.length := by
  cases cs with
  | nil => cases h
  | cons c cs =>
      rw [numeral] at h
      split_ifs at h
      · exact Nat.lt_succ_of_lt (length_unsigned h)
      · exact length_unsigned h

/-! ### Reading a number -/

/-- What may follow a number: nothing that continues it. -/
def Stop : List Char → Prop
  | [] => True
  | c :: _ => c.isDigit = false ∧ c ≠ '.' ∧ c ≠ 'e' ∧ c ≠ 'E' ∧ c ≠ '+' ∧ c ≠ '-'

lemma spanDigits_append (h : Stop r) :
    spanDigits (cs ++ r) = ((spanDigits cs).1, (spanDigits cs).2 ++ r) := by
  induction cs with
  | nil =>
      cases r with
      | nil => rfl
      | cons c r => simp [spanDigits, h.1]
  | cons c cs ih =>
      by_cases hc : c.isDigit = true
      · have ih' := Prod.mk.inj ih
        simp [spanDigits, hc] at ih' ⊢
        exact ih'
      · simp [spanDigits, hc]

lemma digitsAfter_append (h : Stop r) (intro : List Char) :
    digitsAfter intro (cs ++ r) = ((digitsAfter intro cs).1, (digitsAfter intro cs).2 ++ r) := by
  rw [digitsAfter, digitsAfter, spanDigits_append h]
  split_ifs <;> simp

lemma wholePart_append (h : Stop r) {w t : List Char} (hw : wholePart cs = some (w, t)) :
    wholePart (cs ++ r) = some (w, t ++ r) := by
  cases cs with
  | nil => cases hw
  | cons c cs =>
      rw [List.cons_append, wholePart]
      rw [wholePart] at hw
      split_ifs at hw ⊢
      · cases hw
        rfl
      · rw [← List.cons_append, spanDigits_append h, Option.some.inj hw]

lemma fraction_append (h : Stop r) :
    fraction (cs ++ r) = ((fraction cs).1, (fraction cs).2 ++ r) := by
  cases cs with
  | nil =>
      cases r with
      | nil => rfl
      | cons c r => simp [fraction, h.2.1]
  | cons c cs =>
      rw [List.cons_append, fraction, fraction]
      split_ifs
      · exact digitsAfter_append h [c]
      · rfl

lemma signedAfter_append (h : Stop r) (e : Char) :
    signedAfter e (cs ++ r) = ((signedAfter e cs).1, (signedAfter e cs).2 ++ r) := by
  cases cs with
  | nil =>
      cases r with
      | nil => rfl
      | cons c r => simp [signedAfter, h.2.2.2.2.1, h.2.2.2.2.2, digitsAfter, spanDigits, h.1]
  | cons s ds =>
      rw [List.cons_append, signedAfter, signedAfter]
      split_ifs
      · exact digitsAfter_append h [e, s]
      · rw [← List.cons_append]
        exact digitsAfter_append h [e]

lemma exponent_append (h : Stop r) :
    exponent (cs ++ r) = ((exponent cs).1, (exponent cs).2 ++ r) := by
  cases cs with
  | nil =>
      cases r with
      | nil => rfl
      | cons c r => simp [exponent, h.2.2.1, h.2.2.2.1]
  | cons c cs =>
      rw [List.cons_append, exponent, exponent]
      split_ifs
      · exact signedAfter_append h c
      · rfl

lemma unsigned_append (h : Stop r) {minus : Bool} {m : Numeral} {t : List Char}
    (hm : unsigned minus cs = some (m, t)) : unsigned minus (cs ++ r) = some (m, t ++ r) := by
  obtain ⟨⟨w, t'⟩, hwhole, heq⟩ := Option.map_eq_some_iff.mp hm
  cases heq
  rw [unsigned, wholePart_append h hwhole, Option.map_some, fraction_append h, exponent_append h]

/-- A number ends where nothing continues it. -/
lemma numeral_append (h : Stop r) {m : Numeral} {t : List Char} (hm : numeral cs = some (m, t)) :
    numeral (cs ++ r) = some (m, t ++ r) := by
  cases cs with
  | nil => cases hm
  | cons c cs =>
      rw [List.cons_append, numeral]
      rw [numeral] at hm
      split_ifs at hm ⊢
      · exact unsigned_append h hm
      · rw [← List.cons_append]
        exact unsigned_append h hm

lemma digitsAfter_text (intro cs : List Char) :
    (digitsAfter intro cs).1 ++ (digitsAfter intro cs).2 = intro ++ cs := by
  rw [digitsAfter]
  split_ifs
  · rfl
  · simp [spanDigits]

lemma unsigned_text {minus : Bool} {m : Numeral} {t : List Char}
    (h : unsigned minus cs = some (m, t)) :
    m.minus = minus ∧ m.whole ++ m.fraction ++ m.exponent ++ t = cs := by
  have hfraction : ∀ ds, (fraction ds).1 ++ (fraction ds).2 = ds := by
    intro ds
    cases ds with
    | nil => rfl
    | cons c ds =>
        rw [fraction]
        split_ifs
        · exact digitsAfter_text [c] ds
        · rfl
  have hsigned : ∀ e ds, (signedAfter e ds).1 ++ (signedAfter e ds).2 = e :: ds := by
    intro e ds
    cases ds with
    | nil => rfl
    | cons s ds =>
        rw [signedAfter]
        split_ifs
        · exact digitsAfter_text [e, s] ds
        · exact digitsAfter_text [e] (s :: ds)
  have hexponent : ∀ ds, (exponent ds).1 ++ (exponent ds).2 = ds := by
    intro ds
    cases ds with
    | nil => rfl
    | cons c ds =>
        rw [exponent]
        split_ifs
        · exact hsigned c ds
        · rfl
  have hwhole : ∀ ds w t, wholePart ds = some (w, t) → w ++ t = ds := by
    intro ds w t hw
    cases ds with
    | nil => cases hw
    | cons c ds =>
        rw [wholePart] at hw
        split_ifs at hw
        · cases hw
          rfl
        · cases hw
          exact List.takeWhile_append_dropWhile
  obtain ⟨⟨w, t'⟩, hw, heq⟩ := Option.map_eq_some_iff.mp h
  cases heq
  refine ⟨rfl, ?_⟩
  simp only [List.append_assoc]
  rw [hexponent, hfraction, hwhole _ _ _ hw]

/-- The parts of a number are the text that was read. -/
lemma numeral_text {m : Numeral} {t : List Char} (h : numeral cs = some (m, t)) :
    m.text ++ t = cs := by
  cases cs with
  | nil => cases h
  | cons c cs =>
      rw [numeral] at h
      split_ifs at h with hc
      · obtain ⟨hminus, htext⟩ := unsigned_text h
        rw [Numeral.text, hminus, hc, if_pos rfl, List.append_assoc, List.append_assoc,
          List.append_assoc, List.singleton_append, ← htext]
        simp
      · obtain ⟨hminus, htext⟩ := unsigned_text h
        rw [Numeral.text, hminus, ← htext]
        simp

/-- The digits of a number begin with a zero only if there are no others. -/
lemma wholePart_toDigits (n : ℕ) :
    wholePart (Nat.toDigits 10 n) = some (Nat.toDigits 10 n, []) := by
  have hhead : ∀ n, 0 < n → ∃ c cs, Nat.toDigits 10 n = c :: cs ∧ c ≠ '0' := by
    intro n
    induction n using Nat.strong_induction_on with
    | _ n ih =>
      intro hn
      by_cases hsmall : n < 10
      · refine ⟨_, [], Nat.toDigits_of_lt_base hsmall, ?_⟩
        have h10 : ∀ n < 10, 0 < n → n.digitChar ≠ '0' := by decide
        exact h10 n hsmall hn
      · obtain ⟨c, cs, hdigits, hc⟩ := ih (n / 10) (by omega) (by omega)
        refine ⟨c, cs ++ [(n % 10).digitChar], ?_, hc⟩
        rw [Nat.toDigits_of_base_le (by decide) (by omega), hdigits]
        rfl
  have hall : ∀ c ∈ Nat.toDigits 10 n, c.isDigit = true := fun c hc =>
    Nat.isDigit_of_mem_toDigits (by decide) (by decide) hc
  rcases Nat.eq_zero_or_pos n with rfl | hn
  · rfl
  · obtain ⟨c, cs, hdigits, hc⟩ := hhead n hn
    rw [hdigits] at hall ⊢
    have htake : (c :: cs).takeWhile Char.isDigit = c :: cs :=
      List.takeWhile_eq_self_iff.mpr hall
    have hdrop : (c :: cs).dropWhile Char.isDigit = [] := List.dropWhile_eq_nil_iff.mpr hall
    rw [wholePart, if_neg hc, if_pos (hall c List.mem_cons_self), spanDigits, htake, hdrop]

lemma unsigned_toDigits (minus : Bool) (n : ℕ) :
    unsigned minus (Nat.toDigits 10 n) = some (⟨minus, Nat.toDigits 10 n, [], []⟩, []) := by
  rw [unsigned, wholePart_toDigits]
  rfl

/-- The text of an integer is a number without a fraction. -/
lemma numeral_int (n : ℤ) : numeral (toString n).toList
    = some (⟨decide (n < 0), Nat.toDigits 10 n.natAbs, [], []⟩, []) := by
  cases n with
  | ofNat k =>
      have htext : (toString (Int.ofNat k)).toList = Nat.toDigits 10 k := Nat.toList_repr
      have hsign : decide (Int.ofNat k < 0) = false := by simp
      rw [htext, hsign, Int.ofNat_eq_natCast, Int.natAbs_natCast]
      have hread := unsigned_toDigits false k
      cases hdigits : Nat.toDigits 10 k with
      | nil => exact absurd hdigits Nat.toDigits_ne_nil
      | cons c cs =>
          have hc : c ≠ '-' := by
            rintro rfl
            have hdigit : ('-' : Char).isDigit = true := by
              refine Nat.isDigit_of_mem_toDigits (b := 10) (n := k) (by decide) (by decide) ?_
              rw [hdigits]
              exact List.mem_cons_self
            exact absurd hdigit (by decide)
          rw [hdigits] at hread
          rw [numeral, if_neg hc, hread]
  | negSucc k =>
      have htext : (toString (Int.negSucc k)).toList = '-' :: Nat.toDigits 10 (k + 1) := by
        have hrepr : toString (Int.negSucc k) = "-" ++ (k + 1).repr := rfl
        rw [hrepr, String.toList_append, Nat.toList_repr]
        rfl
      have hsign : decide (Int.negSucc k < 0) = true := decide_eq_true (Int.negSucc_lt_zero k)
      rw [htext, hsign, numeral, if_pos rfl, unsigned_toDigits]
      rfl

/-- A number begins with a sign or a digit. -/
lemma numeral_head {m : Numeral} {t : List Char} (h : numeral cs = some (m, t)) :
    ∃ c ds, cs = c :: ds ∧ (c = '-' ∨ c.isDigit = true) := by
  cases cs with
  | nil => cases h
  | cons c cs =>
      refine ⟨c, cs, rfl, ?_⟩
      rw [numeral] at h
      split_ifs at h with hminus
      · exact Or.inl hminus
      · obtain ⟨⟨w, t'⟩, hwhole, -⟩ := Option.map_eq_some_iff.mp h
        rw [wholePart] at hwhole
        split_ifs at hwhole with hzero hdigit
        · exact Or.inr (hzero ▸ rfl)
        · exact Or.inr hdigit

lemma numeral_word {c : Char} (h : ¬(c = '-' ∨ c.isDigit = true)) : numeral (c :: cs) = none := by
  rw [not_or] at h
  have hzero : c ≠ '0' := by
    rintro rfl
    exact h.2 rfl
  rw [numeral, if_neg h.1, unsigned, wholePart, if_neg hzero, if_neg h.2, Option.map_none]

/-! ### The characters of a text -/

/-- A printable ASCII character. -/
def Printable (c : Char) : Prop := 32 ≤ c.toNat ∧ c.toNat < 127

instance : DecidablePred Printable := fun _ => inferInstanceAs (Decidable (_ ∧ _))

/-- A check of the characters of a text in turn. -/
lemma printable_of_all {w : List Char} (h : (w.all fun c => decide (Printable c)) = true) :
    ∀ c ∈ w, Printable c := fun c hc => by simpa using List.all_eq_true.mp h c hc

lemma printable_of_isAlphanum {c : Char} (h : c.isAlphanum = true) : Printable c := by
  delta Char.isAlphanum Char.isAlpha Char.isUpper Char.isLower Char.isDigit at h
  simp only [Bool.or_eq_true, Bool.and_eq_true, decide_eq_true_eq, UInt32.le_iff_toNat_le] at h
  have hval : c.toNat = c.val.toNat := rfl
  rw [Printable, hval]
  constructor
  · rcases h with (⟨h, -⟩ | ⟨h, -⟩) | ⟨h, -⟩ <;> exact le_trans (by decide) h
  · rcases h with (⟨-, h⟩ | ⟨-, h⟩) | ⟨-, h⟩ <;> exact lt_of_le_of_lt h (by decide)

lemma printable_of_isDigit {c : Char} (h : c.isDigit = true) : Printable c :=
  printable_of_isAlphanum (by rw [Char.isAlphanum, h, Bool.or_true])

lemma digitsAfter_printable {intro : List Char} (h : ∀ c ∈ intro, Printable c) (cs : List Char) :
    ∀ c ∈ (digitsAfter intro cs).1, Printable c := by
  rw [digitsAfter]
  split_ifs
  · exact nofun
  · rw [List.forall_mem_append]
    exact ⟨h, fun c hc => printable_of_isDigit (List.mem_takeWhile_imp hc)⟩

lemma unsigned_printable {minus : Bool} {m : Numeral} {t : List Char}
    (h : unsigned minus cs = some (m, t)) :
    ∀ c ∈ m.whole ++ m.fraction ++ m.exponent, Printable c := by
  obtain ⟨⟨w, t'⟩, hw, heq⟩ := Option.map_eq_some_iff.mp h
  cases heq
  simp only [List.forall_mem_append]
  refine ⟨⟨?_, ?_⟩, ?_⟩
  · cases cs with
    | nil => cases hw
    | cons c cs =>
        rw [wholePart] at hw
        split_ifs at hw with hzero
        · cases hw
          rw [hzero]
          exact printable_of_all rfl
        · cases hw
          exact fun c hc => printable_of_isDigit (List.mem_takeWhile_imp hc)
  · cases t' with
    | nil => exact nofun
    | cons c t' =>
        rw [fraction]
        split_ifs with hpoint
        · rw [hpoint]
          exact digitsAfter_printable (printable_of_all rfl) t'
        · exact nofun
  · cases (fraction t').2 with
    | nil => exact nofun
    | cons c r =>
        rw [exponent]
        split_ifs with hletter
        · have hc : Printable c := by rcases hletter with rfl | rfl <;> decide
          cases r with
          | nil => exact nofun
          | cons s r =>
              rw [signedAfter]
              split_ifs with hsign
              · have hs : Printable s := by rcases hsign with rfl | rfl <;> decide
                refine digitsAfter_printable ?_ r
                simp [hc, hs]
              · refine digitsAfter_printable ?_ (s :: r)
                simp [hc]
        · exact nofun

lemma numeral_printable {m : Numeral} (h : numeral cs = some (m, [])) : ∀ c ∈ cs, Printable c := by
  have htext := numeral_text h
  rw [List.append_nil] at htext
  rw [← htext, Numeral.text, List.append_assoc, List.append_assoc, List.forall_mem_append,
    ← List.append_assoc]
  constructor
  · split_ifs
    · exact printable_of_all rfl
    · exact nofun
  · cases cs with
    | nil => cases h
    | cons c cs =>
        rw [numeral] at h
        split_ifs at h
        · exact unsigned_printable h
        · exact unsigned_printable h

end GgRelay.JsonRead
