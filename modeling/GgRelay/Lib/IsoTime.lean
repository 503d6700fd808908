import Mathlib.Tactic

/-!
Calendar times and their ISO 8601 texts.

* `DateTime` is a time of the calendar with an optional offset from UTC;
* `DateTime.isoformat` writes it, `fromisoformat` reads the texts of this shape (it knows none of
  the shorter or compact forms of the standard);
* `fromisoformat_isoformat` is the round trip, `mem_isoformat` says which characters occur.
-/

namespace GgRelay

/-! ### Digits -/

/-- A decimal digit. -/
def digit (n : ℕ) : Char := Char.ofNat (48 + n % 10)

/-- The value of a decimal digit. -/
def digitVal (c : Char) : Option ℕ :=
  if 48 ≤ c.toNat ∧ c.toNat < 58 then some (c.toNat - 48) else none

lemma digitVal_digit (n : ℕ) : digitVal (digit n) = some (n % 10) := by
  have h : ∀ k < 10, digitVal (Char.ofNat (48 + k)) = some k := by decide
  exact h _ (Nat.mod_lt _ (by omega))

/-- `f"{n:02d}"`. -/
def pad2 (n : ℕ) : List Char := [digit (n / 10), digit n]

/-- `f"{n:04d}"`. -/
def pad4 (n : ℕ) : List Char := pad2 (n / 100) ++ pad2 (n % 100)

/-- `f"{n:06d}"`. -/
def pad6 (n : ℕ) : List Char := pad4 (n / 100) ++ pad2 (n % 100)

/-- Two digits as a number. -/
def read2 (a b : Char) : Option ℕ := do
  let x ← digitVal a
  let y ← digitVal b
  return 10 * x + y

/-- Six digits as a number. -/
def read6 (a b c d e f : Char) : Option ℕ := do
  let x ← read2 a b
  let y ← read2 c d
  let z ← read2 e f
  return 10000 * x + 100 * y + z

lemma read2_digit {n : ℕ} (h : n < 100) : read2 (digit (n / 10)) (digit n) = some n := by
  rw [read2, digitVal_digit, digitVal_digit]
  show some (10 * (n / 10 % 10) + n % 10) = some n
  congr 1
  omega

/-- A digit is none of the other characters. -/
lemma digit_isDigit (n : ℕ) : (digit n).isDigit = true := by
  have h : ∀ k < 10, (Char.ofNat (48 + k)).isDigit = true := by decide
  exact h _ (Nat.mod_lt _ (by omega))

/-! ### Times -/

/-- `calendar.monthrange(year, month)[1]`. -/
def daysInMonth (year month : ℕ) : ℕ :=
  if month = 2 then
    if year % 4 = 0 ∧ (year % 100 ≠ 0 ∨ year % 400 = 0) then 29 else 28
  else if month = 4 ∨ month = 6 ∨ month = 9 ∨ month = 11 then 30
  else 31

/-- The offset of a time zone from UTC: less than a day, down to the microsecond. -/
structure UtcOffset where
  negative : Bool
  hour : ℕ
  minute : ℕ
  second : ℕ
  microsecond : ℕ
  deriving DecidableEq

/-- The fields of a `datetime`. -/
structure DateTime.Fields where
  year : ℕ
  month : ℕ
  day : ℕ
  hour : ℕ
  minute : ℕ
  second : ℕ
  microsecond : ℕ
  /-- `utcoffset()`; none for a naive time -/
  offset : Option UtcOffset
  deriving DecidableEq

/-- An offset is in range, and zero is positive. -/
def UtcOffset.Valid (o : UtcOffset) : Prop :=
  o.hour < 24 ∧ o.minute < 60 ∧ o.second < 60 ∧ o.microsecond < 1000000 ∧
    (o.negative = true → 0 < o.hour + o.minute + o.second + o.microsecond)

instance (o : UtcOffset) : Decidable o.Valid := by
  unfold UtcOffset.Valid
  infer_instance

/-- The fields make a time of the calendar. -/
def DateTime.Fields.Valid (t : DateTime.Fields) : Prop :=
  1 ≤ t.year ∧ t.year < 10000 ∧ 1 ≤ t.month ∧ t.month < 13 ∧ 1 ≤ t.day ∧
    t.day ≤ daysInMonth t.year t.month ∧ t.hour < 24 ∧ t.minute < 60 ∧ t.second < 60 ∧
    t.microsecond < 1000000 ∧ ∀ o ∈ t.offset, o.Valid

instance (t : DateTime.Fields) : Decidable t.Valid := by
  unfold DateTime.Fields.Valid
  infer_instance

/-- A `datetime`. -/
def DateTime : Type := {t : DateTime.Fields // t.Valid}

instance : DecidableEq DateTime := inferInstanceAs (DecidableEq {t : DateTime.Fields // t.Valid})

lemma daysInMonth_le (y m : ℕ) : daysInMonth y m ≤ 31 := by
  unfold daysInMonth
  split_ifs <;> omega

/-! ### Writing -/

/-- The fraction of a second, which is left out when it is zero. -/
def isoFraction (us : ℕ) : List Char := if us = 0 then [] else '.' :: pad6 us

/-- The seconds of an offset, which are left out when they are zero. -/
def isoSeconds (second us : ℕ) : List Char :=
  if second = 0 ∧ us = 0 then [] else ':' :: pad2 second ++ isoFraction us

/-- An offset. -/
def UtcOffset.iso (o : UtcOffset) : List Char :=
  (if o.negative then '-' else '+') :: pad2 o.hour ++ ':' :: pad2 o.minute ++
    isoSeconds o.second o.microsecond

/-- The characters of `isoformat()`. -/
def DateTime.Fields.iso (t : DateTime.Fields) : List Char :=
  pad4 t.year ++ '-' :: pad2 t.month ++ '-' :: pad2 t.day ++ 'T' :: pad2 t.hour ++
    ':' :: pad2 t.minute ++ ':' :: pad2 t.second ++ isoFraction t.microsecond ++
    (t.offset.map UtcOffset.iso).getD []

/-- `datetime.isoformat()`. -/
def DateTime.isoformat (t : DateTime) : String := String.ofList t.1.iso

/-! ### Reading -/

/-- A fraction, if there is one, and what follows. -/
def readFraction : List Char → Option (ℕ × List Char)
  | '.' :: a :: b :: c :: d :: e :: f :: rest => (read6 a b c d e f).map fun us => (us, rest)
  | rest => some (0, rest)

/-- The seconds of an offset, if it has any. -/
def readOffsetSeconds : List Char → Option (ℕ × ℕ)
  | [] => some (0, 0)
  | ':' :: a :: b :: rest => do
      let second ← read2 a b
      let (us, rest) ← readFraction rest
      if rest = [] then some (second, us) else none
  | _ => none

/-- An offset, if there is one. -/
def readOffset : List Char → Option (Option UtcOffset)
  | [] => some none
  | ['Z'] => some (some ⟨false, 0, 0, 0, 0⟩)
  | sign :: a :: b :: ':' :: c :: d :: rest =>
      if sign = '+' ∨ sign = '-' then do
        let hour ← read2 a b
        let minute ← read2 c d
        let (second, us) ← readOffsetSeconds rest
        -- there is no negative zero
        return some ⟨sign = '-' ∧ 0 < hour + minute + second + us, hour, minute, second, us⟩
      else none
  | _ => none

/-- The fields of a time. -/
def readFields : List Char → Option DateTime.Fields
  | a :: b :: c :: d :: '-' :: e :: f :: '-' :: g :: h :: _ :: i :: j :: ':' :: k :: l :: ':' ::
      m :: n :: rest => do
      let century ← read2 a b
      let year ← read2 c d
      let month ← read2 e f
      let day ← read2 g h
      let hour ← read2 i j
      let minute ← read2 k l
      let second ← read2 m n
      let (us, rest) ← readFraction rest
      let offset ← readOffset rest
      return ⟨100 * century + year, month, day, hour, minute, second, us, offset⟩
  | _ => none

/-- `datetime.fromisoformat(text)` on texts of this shape; none for its `ValueError`. -/
def fromisoformat (text : String) : Option DateTime := do
  let t ← readFields text.toList
  if h : t.Valid then some ⟨t, h⟩ else none

/-! ### The round trip -/

lemma read6_digits {n : ℕ} (h : n < 1000000) :
    read6 (digit (n / 100 / 100 / 10)) (digit (n / 100 / 100)) (digit (n / 100 % 100 / 10))
      (digit (n / 100 % 100)) (digit (n % 100 / 10)) (digit (n % 100)) = some n := by
  rw [read6, read2_digit (by omega), read2_digit (by omega), read2_digit (by omega)]
  show some (10000 * (n / 100 / 100) + 100 * (n / 100 % 100) + n % 100) = some n
  congr 1
  omega

/-- What can follow a fraction does not look like one. -/
lemma readFraction_append {us : ℕ} (h : us < 1000000) {rest : List Char}
    (hrest : rest.head? ≠ some '.') : readFraction (isoFraction us ++ rest) = some (us, rest) := by
  rw [isoFraction]
  split_ifs with h0
  · subst h0
    rw [List.nil_append, readFraction]
    intro a b c d e f rest' heq
    rw [heq] at hrest
    exact hrest rfl
  · show (read6 _ _ _ _ _ _).map _ = _
    rw [read6_digits h]
    rfl

lemma readOffsetSeconds_iso {second us : ℕ} (hs : second < 60) (hus : us < 1000000) :
    readOffsetSeconds (isoSeconds second us) = some (second, us) := by
  rw [isoSeconds]
  split_ifs with h0
  · rw [h0.1, h0.2]
    rfl
  · show (do
      let second ← read2 (digit (second / 10)) (digit second)
      let (us, rest) ← readFraction (isoFraction us)
      if rest = [] then some (second, us) else none) = some (second, us)
    rw [read2_digit (by omega), ← List.append_nil (isoFraction us),
      readFraction_append hus (by simp)]
    rfl

lemma readOffset_iso {o : UtcOffset} (h : o.Valid) : readOffset o.iso = some (some o) := by
  obtain ⟨hh, hm, hs, hus, hneg⟩ := h
  have key : ∀ sign : Char, sign = '+' ∨ sign = '-' →
      readOffset (sign :: pad2 o.hour ++ ':' :: pad2 o.minute ++ isoSeconds o.second o.microsecond)
        = some (some ⟨sign = '-' ∧ 0 < o.hour + o.minute + o.second + o.microsecond,
            o.hour, o.minute, o.second, o.microsecond⟩) := by
    intro sign hsign
    show readOffset (sign :: digit (o.hour / 10) :: digit o.hour :: ':' :: digit (o.minute / 10) ::
      digit o.minute :: isoSeconds o.second o.microsecond) = _
    rw [readOffset, if_pos hsign, read2_digit (by omega), read2_digit (by omega)]
    show (readOffsetSeconds (isoSeconds o.second o.microsecond)).bind _ = _
    rw [readOffsetSeconds_iso hs hus]
    rfl
  cases hn : o.negative with
  | false =>
      rw [UtcOffset.iso, hn]
      refine (key '+' (Or.inl rfl)).trans ?_
      simp [← hn]
  | true =>
      rw [UtcOffset.iso, hn]
      refine (key '-' (Or.inr rfl)).trans ?_
      simp [hneg hn, ← hn]

lemma head_offset (o : Option UtcOffset) :
    ((o.map UtcOffset.iso).getD []).head? ≠ some '.' := by
  cases o with
  | none => simp
  | some o =>
      show ((if o.negative then '-' else '+') :: _).head? ≠ some '.'
      cases o.negative <;> simp

lemma readFields_iso {t : DateTime.Fields} (h : t.Valid) : readFields t.iso = some t := by
  obtain ⟨hy, hy', hm, hm', hd, hd', hh, hi, hs, hus, ho⟩ := h
  have hday := daysInMonth_le t.year t.month
  have hoffset : readOffset ((t.offset.map UtcOffset.iso).getD []) = some t.offset := by
    cases h : t.offset with
    | none => rfl
    | some o => exact readOffset_iso (ho o h)
  show (do
      let century ← read2 (digit (t.year / 100 / 10)) (digit (t.year / 100))
      let year ← read2 (digit (t.year % 100 / 10)) (digit (t.year % 100))
      let month ← read2 (digit (t.month / 10)) (digit t.month)
      let day ← read2 (digit (t.day / 10)) (digit t.day)
      let hour ← read2 (digit (t.hour / 10)) (digit t.hour)
      let minute ← read2 (digit (t.minute / 10)) (digit t.minute)
      let second ← read2 (digit (t.second / 10)) (digit t.second)
      let (us, rest) ← readFraction (isoFraction t.microsecond ++ _)
      let offset ← readOffset rest
      return (⟨100 * century + year, month, day, hour, minute, second, us, offset⟩
        : DateTime.Fields)) = some t
  rw [read2_digit (by omega), read2_digit (by omega), read2_digit (by omega),
    read2_digit (by omega), read2_digit (by omega), read2_digit (by omega),
    read2_digit (by omega), readFraction_append hus (head_offset t.offset)]
  show (readOffset ((t.offset.map UtcOffset.iso).getD [])).bind _ = some t
  rw [hoffset]
  show some (⟨100 * (t.year / 100) + t.year % 100, _, _, _, _, _, _, _⟩ : DateTime.Fields) = some t
  rw [Nat.div_add_mod]

/-- **A time is read back.** -/
theorem fromisoformat_isoformat (t : DateTime) : fromisoformat t.isoformat = some t := by
  rw [fromisoformat, DateTime.isoformat, String.toList_ofList, readFields_iso t.2]
  exact dif_pos t.2

lemma isoformat_injective : Function.Injective DateTime.isoformat := by
  intro t u h
  have := congrArg fromisoformat h
  rwa [fromisoformat_isoformat, fromisoformat_isoformat, Option.some.injEq] at this

/-! ### The characters of a time -/

/-- A digit, or one of the separators. -/
def IsoChar (c : Char) : Prop := c.isDigit = true ∨ c ∈ ['-', 'T', ':', '.', '+']

lemma isoChar_pad2 {n : ℕ} : ∀ c ∈ pad2 n, IsoChar c := by
  intro c hc
  rw [pad2, List.mem_cons, List.mem_singleton] at hc
  rcases hc with rfl | rfl <;> exact Or.inl (digit_isDigit _)

lemma isoChar_fraction {us : ℕ} : ∀ c ∈ isoFraction us, IsoChar c := by
  rw [isoFraction]
  split_ifs
  · simp
  · simp only [pad6, pad4, List.forall_mem_cons, List.forall_mem_append]
    exact ⟨Or.inr (by decide), ⟨isoChar_pad2, isoChar_pad2⟩, isoChar_pad2⟩

lemma isoChar_seconds {second us : ℕ} : ∀ c ∈ isoSeconds second us, IsoChar c := by
  rw [isoSeconds]
  split_ifs
  · simp
  · simp only [List.cons_append, List.forall_mem_cons, List.forall_mem_append]
    exact ⟨Or.inr (by decide), isoChar_pad2, isoChar_fraction⟩

lemma isoChar_offset {o : UtcOffset} : ∀ c ∈ o.iso, IsoChar c := by
  simp only [UtcOffset.iso, List.cons_append, List.forall_mem_cons, List.forall_mem_append]
  refine ⟨?_, ⟨isoChar_pad2, Or.inr (by decide), isoChar_pad2⟩, isoChar_seconds⟩
  cases o.negative <;> exact Or.inr (by decide)

/-- **Which characters a time is written with.** -/
theorem mem_isoformat {t : DateTime} : ∀ c ∈ t.isoformat.toList, IsoChar c := by
  have hoffset : ∀ c ∈ (t.1.offset.map UtcOffset.iso).getD [], IsoChar c := by
    cases t.1.offset with
    | none => simp
    | some o => exact isoChar_offset
  have hdash : IsoChar '-' := Or.inr (by decide)
  have hcolon : IsoChar ':' := Or.inr (by decide)
  have htee : IsoChar 'T' := Or.inr (by decide)
  rw [DateTime.isoformat, String.toList_ofList]
  simp only [DateTime.Fields.iso, pad4, List.append_assoc, List.cons_append,
    List.forall_mem_cons, List.forall_mem_append]
  exact ⟨isoChar_pad2, isoChar_pad2, hdash, isoChar_pad2, hdash, isoChar_pad2, htee, isoChar_pad2,
    hcolon, isoChar_pad2, hcolon, isoChar_pad2, isoChar_fraction, hoffset⟩

end GgRelay
