import Mathlib.Tactic

/-!
Integers as text, in the grammar of `int(text)`: blanks around, a sign, decimal digits of any
script, single underscores between digits, and a limit on the number of digits.

* `IntText.parse` reads a text, `IntText.parseAscii` one whose digits and blanks are ASCII;
* `IntText.parse_toString`: what is written is read back.
-/

namespace GgRelay.IntText

/-- The zeros of the decimal digits; the ten digits of a script follow each other. -/
def zeros : List ℕ :=
  [0x30, 0x660, 0x6F0, 0x7C0, 0x966, 0x9E6, 0xA66, 0xAE6, 0xB66, 0xBE6, 0xC66, 0xCE6, 0xD66, 0xDE6,
    0xE50, 0xED0, 0xF20, 0x1040, 0x1090, 0x17E0, 0x1810, 0x1946, 0x19D0, 0x1A80, 0x1A90, 0x1B50,
    0x1BB0, 0x1C40, 0x1C50, 0xA620, 0xA8D0, 0xA900, 0xA9D0, 0xA9F0, 0xAA50, 0xABF0, 0xFF10,
    0x104A0, 0x10D30, 0x11066, 0x110F0, 0x11136, 0x111D0, 0x112F0, 0x11450, 0x114D0, 0x11650,
    0x116C0, 0x11730, 0x118E0, 0x11950, 0x11C50, 0x11D50, 0x11DA0, 0x16A60, 0x16AC0, 0x16B50,
    0x1D7CE, 0x1D7D8, 0x1D7E2, 0x1D7EC, 0x1D7F6, 0x1E140, 0x1E2F0, 0x1E950, 0x1FBF0]

/-- The decimal value of a character. -/
def decimalValue (c : Char) : Option ℕ :=
  (zeros.find? fun z => z ≤ c.toNat && c.toNat < z + 10).map fun z => c.toNat - z

/-- `Py_ISSPACE`. -/
def isAsciiSpace (c : Char) : Bool := c = ' ' || (9 ≤ c.toNat && c.toNat ≤ 13)

/-- The blanks beyond ASCII. -/
def isWideSpace (c : Char) : Bool :=
  let n := c.toNat
  n == 0x85 || n == 0xA0 || n == 0x1680 || (0x2000 ≤ n && n ≤ 0x200A) || n == 0x2028 || n == 0x2029
    || n == 0x202F || n == 0x205F || n == 0x3000

/-- A text beyond ASCII, with the digits and blanks of other scripts as ASCII ones. -/
def toAscii (c : Char) : Char :=
  if c.toNat < 127 then c
  else if isWideSpace c then ' '
  else
    match decimalValue c with
    | some d => Char.ofNat (48 + d)
    | none => '?'

/-- `sys.get_int_max_str_digits`. -/
def maxDigits : ℕ := 4300

/-- Digits with single underscores between them, and how many; `last` tells whether a digit came
last. -/
def digits (value count : ℕ) (last : Bool) : List Char → Option (ℕ × ℕ)
  | [] => if last then some (value, count) else none
  | c :: cs =>
      if c.isDigit then digits (value * 10 + (c.toNat - 48)) (count + 1) true cs
      else if c = '_' && last then digits value count false cs
      else none

/-- A number without a sign. -/
def natural (cs : List Char) : Option ℕ :=
  (digits 0 0 false cs).bind fun r => if r.2 ≤ maxDigits then some r.1 else none

/-- Blanks around removed. -/
def trim (cs : List Char) : List Char :=
  ((cs.dropWhile isAsciiSpace).reverse.dropWhile isAsciiSpace).reverse

/-- A number with its sign. -/
def signed : List Char → Option ℤ
  | '-' :: cs => (natural cs).map fun n : ℕ => -(n : ℤ)
  | '+' :: cs => (natural cs).map fun n : ℕ => (n : ℤ)
  | cs => (natural cs).map fun n : ℕ => (n : ℤ)

/-- `int(text)` of an ASCII text; `none` is a `ValueError`. -/
def parseAscii (cs : List Char) : Option ℤ := signed (trim cs)

/-- `int(text)`; `none` is a `ValueError`. -/
def parse (s : String) : Option ℤ := parseAscii (s.toList.map toAscii)

/-! ### Reading what was written -/

lemma digits_eq {cs : List Char} (hcs : ∀ c ∈ cs, c.isDigit) : ∀ {value count : ℕ} {last : Bool},
    (last = true ∨ cs ≠ []) →
      digits value count last cs = some (Nat.ofDigitChars 10 cs value, count + cs.length) := by
  induction cs with
  | nil =>
      intro value count last h
      obtain rfl : last = true := by simpa using h
      rfl
  | cons c cs ih =>
      intro value count last _
      have hc := hcs c List.mem_cons_self
      rw [digits, if_pos hc, ih (fun c' hc' => hcs c' (List.mem_cons_of_mem _ hc')) (.inl rfl),
        Nat.ofDigitChars_cons, List.length_cons, mul_comm value 10]
      congr 2
      omega

/-- Digits are read as the number they write. -/
theorem natural_toDigits {n : ℕ} (h : (Nat.toDigits 10 n).length ≤ maxDigits) :
    natural (Nat.toDigits 10 n) = some n := by
  have hdigits : ∀ c ∈ Nat.toDigits 10 n, c.isDigit := fun c hc =>
    Nat.isDigit_of_mem_toDigits (by decide) (by decide) hc
  rw [natural, digits_eq hdigits (.inr Nat.toDigits_ne_nil), Option.bind_some, zero_add, if_pos h,
    Nat.ofDigitChars_toDigits (by decide) (by decide)]

/-- A character of a written number: no blank, and the same in ASCII. -/
def Plain (c : Char) : Prop := isAsciiSpace c = false ∧ toAscii c = c

lemma plain_of_isDigit {c : Char} (h : c.isDigit) : Plain c := by
  have hrange : 48 ≤ c.toNat ∧ c.toNat ≤ 57 := by
    simp only [Char.isDigit, Bool.and_eq_true, decide_eq_true_eq, UInt32.le_iff_toNat_le] at h
    exact h
  refine ⟨?_, if_pos (by omega)⟩
  have hne : c ≠ ' ' := by
    rintro rfl
    exact absurd hrange (by decide)
  simp [isAsciiSpace, hne]
  omega

lemma plain_minus : Plain '-' := by
  refine ⟨by decide, by decide⟩

lemma trim_of_plain {cs : List Char} (h : ∀ c ∈ cs, Plain c) : trim cs = cs := by
  have hdrop : ∀ ds : List Char, (∀ c ∈ ds, Plain c) → ds.dropWhile isAsciiSpace = ds := by
    intro ds hds
    cases ds with
    | nil => rfl
    | cons d ds => rw [List.dropWhile_cons_of_neg (by simp [(hds d List.mem_cons_self).1])]
  rw [trim, hdrop cs h, hdrop cs.reverse (fun c hc => h c (List.mem_reverse.mp hc)),
    List.reverse_reverse]

lemma signed_of_digits {cs : List Char} (h : ∀ c ∈ cs, c.isDigit) :
    signed cs = (natural cs).map fun n : ℕ => (n : ℤ) := by
  cases cs with
  | nil => rfl
  | cons c cs =>
      have hc := h c List.mem_cons_self
      have hminus : c ≠ '-' := by
        rintro rfl
        exact absurd hc (by decide)
      have hplus : c ≠ '+' := by
        rintro rfl
        exact absurd hc (by decide)
      rw [signed]
      · simpa using hminus
      · simpa using hplus

/-- What `str(n)` writes, `int` reads. -/
theorem parse_toString {n : ℤ} (h : (Nat.toDigits 10 n.natAbs).length ≤ maxDigits) :
    parse (toString n) = some n := by
  have hread : ∀ cs : List Char, (∀ c ∈ cs, Plain c) → parseAscii (cs.map toAscii) = signed cs := by
    intro cs hcs
    have hmap : cs.map toAscii = cs := by
      conv_rhs => rw [← List.map_id cs]
      exact List.map_congr_left fun c hc => (hcs c hc).2
    rw [hmap, parseAscii, trim_of_plain hcs]
  have hdigits : ∀ m : ℕ, ∀ c ∈ Nat.toDigits 10 m, c.isDigit := fun m c hc =>
    Nat.isDigit_of_mem_toDigits (by decide) (by decide) hc
  rw [parse]
  cases n with
  | ofNat m =>
      have htext : (toString (Int.ofNat m)).toList = Nat.toDigits 10 m := Nat.toList_repr
      rw [htext, hread _ fun c hc => plain_of_isDigit (hdigits m c hc),
        signed_of_digits (hdigits m), natural_toDigits (n := m) h]
      rfl
  | negSucc m =>
      have htext : (toString (Int.negSucc m)).toList = '-' :: Nat.toDigits 10 (m + 1) := by
        have hrepr : toString (Int.negSucc m) = "-" ++ (m + 1).repr := rfl
        rw [hrepr, String.toList_append, Nat.toList_repr]
        rfl
      rw [htext, hread, signed, natural_toDigits (n := m + 1) h]
      · rfl
      · exact List.forall_mem_cons.mpr
          ⟨plain_minus, fun c hc => plain_of_isDigit (hdigits _ c hc)⟩

end GgRelay.IntText
