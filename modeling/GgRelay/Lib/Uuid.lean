import GgRelay.Lib.IntText
import GgRelay.Lib.Quote

/-!
UUIDs and their texts.

* `Uuid.text` is `str(uuid)`, five groups of hexadecimal digits; `Uuid.parse` is `UUID(text)`, which
  takes a number in any of the forms that `int(text, 16)` takes;
* `Uuid.parse_text` is the round trip.
-/

namespace GgRelay

/-- A UUID. -/
abbrev Uuid := BitVec 128

namespace Uuid

/-- The groups of the digits. -/
def grouped (h : List Char) : List Char :=
  h.take 8 ++ '-' :: (h.drop 8).take 4 ++ '-' :: (h.drop 12).take 4 ++ '-' :: (h.drop 16).take 4 ++
    '-' :: h.drop 20

/-- `str(uuid)`. -/
def text (u : Uuid) : String := String.ofList (grouped (hex 32 u.toNat))

/-- `s.replace(pattern, "")`; the number counts the characters of an occurrence that are left. -/
def removeAll (pattern : List Char) : ℕ → List Char → List Char
  | _, [] => []
  | k + 1, _ :: cs => removeAll pattern k cs
  | 0, c :: cs =>
      if pattern.isPrefixOf (c :: cs) then removeAll pattern (pattern.length - 1) cs
      else c :: removeAll pattern 0 cs

/-- `s.strip("{}")`. -/
def stripBraces (cs : List Char) : List Char :=
  let isBrace := fun c : Char => c = '{' || c = '}'
  ((cs.dropWhile isBrace).reverse.dropWhile isBrace).reverse

/-- Hexadecimal digits with single underscores between them; `last` tells whether a digit came
last. -/
def hexDigits (value : ℕ) (last : Bool) : List Char → Option ℕ
  | [] => if last then some value else none
  | c :: cs =>
      if isHex c then hexDigits (16 * value + hexVal (lowerHex c)) true cs
      else if c = '_' && last then hexDigits value false cs
      else none

/-- Digits after `0x`, where one underscore may stand. -/
def afterPrefix : List Char → Option ℕ
  | [] => none
  | c :: cs => if c = '_' then hexDigits 0 false cs else hexDigits 0 false (c :: cs)

/-- A number without a sign. -/
def unsigned : List Char → Option ℕ
  | [] => none
  | [c] => hexDigits 0 false [c]
  | c :: d :: cs =>
      if c = '0' ∧ (d = 'x' ∨ d = 'X') then afterPrefix cs else hexDigits 0 false (c :: d :: cs)

/-- `int(text, 16)` on a text without a minus. -/
def hexInt (cs : List Char) : Option ℕ :=
  match IntText.trim (cs.map IntText.toAscii) with
  | [] => none
  | c :: cs => if c = '+' then unsigned cs else unsigned (c :: cs)

/-- `UUID(text)`; `none` is its `ValueError`. -/
def parse (s : String) : Option Uuid :=
  let digits := (stripBraces (removeAll "uuid:".toList 0 (removeAll "urn:".toList 0 s.toList))).filter
    (· ≠ '-')
  if digits.length = 32 then
    (hexInt digits).bind fun n => if n < 2 ^ 128 then some (BitVec.ofNat 128 n) else none
  else none

/-! ### The round trip -/

lemma removeAll_of_not_mem {c : Char} {pattern cs : List Char} (h : c ∉ cs) :
    removeAll (c :: pattern) 0 cs = cs := by
  induction cs with
  | nil => rfl
  | cons d cs ih =>
      rw [List.mem_cons, not_or] at h
      rw [removeAll, if_neg, ih h.2]
      simp [List.isPrefixOf, h.1]

lemma stripBraces_of_not_mem {cs : List Char} (h : ∀ c ∈ cs, c ≠ '{' ∧ c ≠ '}') :
    stripBraces cs = cs := by
  have hdrop : ∀ ds : List Char, (∀ c ∈ ds, c ≠ '{' ∧ c ≠ '}') →
      ds.dropWhile (fun c : Char => c = '{' || c = '}') = ds := by
    intro ds hds
    cases ds with
    | nil => rfl
    | cons d ds =>
        obtain ⟨hopen, hclose⟩ := hds d List.mem_cons_self
        exact List.dropWhile_cons_of_neg (by simp [hopen, hclose])
  simp only [stripBraces]
  rw [hdrop cs h, hdrop cs.reverse fun c hc => h c (List.mem_reverse.mp hc), List.reverse_reverse]

lemma hexDigits_eq {cs : List Char} (h : ∀ c ∈ cs, isHex c = true ∧ lowerHex c = c) {value : ℕ}
    {last : Bool} (hne : last = true ∨ cs ≠ []) :
    hexDigits value last cs = some (cs.foldl (fun n c => 16 * n + hexVal c) value) := by
  induction cs generalizing value last with
  | nil =>
      obtain rfl : last = true := by simpa using hne
      rfl
  | cons c cs ih =>
      obtain ⟨⟨hc, hlower⟩, hcs⟩ := List.forall_mem_cons.mp h
      rw [hexDigits, if_pos hc, hlower, ih hcs (Or.inl rfl)]
      rfl

/-- A hexadecimal digit is none of the other characters of a text. -/
lemma ne_of_isHex {c d : Char} (h : isHex c = true) (hd : isHex d = false) : c ≠ d := by
  rintro rfl
  rw [h] at hd
  cases hd

lemma plain_of_isHex {c : Char} (h : isHex c = true) : IntText.Plain c := by
  have hrange : 48 ≤ c.toNat ∧ c.toNat < 127 := by
    simp only [isHex, Char.isDigit, Bool.or_eq_true, Bool.and_eq_true, decide_eq_true_eq,
      UInt32.le_iff_toNat_le] at h
    have hval : c.toNat = c.val.toNat := rfl
    rcases h with (⟨hlow, hhigh⟩ | ⟨hlow, hhigh⟩) | ⟨hlow, hhigh⟩
    · rw [hval]
      exact ⟨hlow, lt_of_le_of_lt hhigh (by decide)⟩
    · exact ⟨by omega, by omega⟩
    · exact ⟨by omega, by omega⟩
  refine ⟨?_, if_pos hrange.2⟩
  have hne : c ≠ ' ' := by
    rintro rfl
    exact absurd hrange.1 (by decide)
  simp [IntText.isAsciiSpace, hne]
  omega

/-- The digits of a number are read. -/
lemma hexInt_hex {w n : ℕ} (hw : 0 < w) (hn : n < 16 ^ w) : hexInt (hex w n) = some n := by
  have hhex := @isHex_of_mem_hex w n
  have hplain : ∀ c ∈ hex w n, IntText.Plain c := fun c hc => plain_of_isHex (hhex c hc).1
  have hmap : (hex w n).map IntText.toAscii = hex w n := by
    conv_rhs => rw [← List.map_id (hex w n)]
    exact List.map_congr_left fun c hc => (hplain c hc).2
  have hne : hex w n ≠ [] := by
    intro h
    have := congrArg List.length h
    rw [length_hex] at this
    simp only [List.length_nil] at this
    omega
  have hread : hexDigits 0 false (hex w n) = some n := by
    rw [hexDigits_eq hhex (Or.inr hne)]
    exact congrArg some (unhex_hex hn)
  rw [hexInt, hmap, IntText.trim_of_plain hplain]
  cases hcs : hex w n with
  | nil => exact absurd hcs hne
  | cons c cs =>
      rw [hcs] at hread hhex
      obtain ⟨⟨hc, -⟩, hrest⟩ := List.forall_mem_cons.mp hhex
      simp only
      rw [if_neg (ne_of_isHex hc rfl)]
      cases cs with
      | nil => exact hread
      | cons d cs =>
          have hd := (hrest d List.mem_cons_self).1
          rw [unsigned, if_neg, hread]
          rintro ⟨-, h | h⟩
          · exact ne_of_isHex hd rfl h
          · exact ne_of_isHex hd rfl h

lemma filter_grouped {h : List Char} (hh : ∀ c ∈ h, c ≠ '-') : (grouped h).filter (· ≠ '-') = h := by
  have hkeep : ∀ g : List Char, (∀ c ∈ g, c ∈ h) → g.filter (· ≠ '-') = g := fun g hg =>
    List.filter_eq_self.mpr fun c hc => decide_eq_true (hh c (hg c hc))
  have htake : ∀ k m, ∀ c ∈ (h.drop k).take m, c ∈ h := fun k m c hc =>
    List.mem_of_mem_drop (List.mem_of_mem_take hc)
  have hdash : ∀ g : List Char, ('-' :: g).filter (· ≠ '-') = g.filter (· ≠ '-') := fun g =>
    List.filter_cons_of_neg (by simp)
  rw [grouped, List.filter_append, List.filter_append, List.filter_append, List.filter_append,
    hdash, hdash, hdash, hdash, hkeep _ fun c hc => List.mem_of_mem_take hc, hkeep _ (htake 8 4),
    hkeep _ (htake 12 4), hkeep _ (htake 16 4), hkeep _ fun c hc => List.mem_of_mem_drop hc]
  have h16 : (h.drop 16).take 4 ++ h.drop 20 = h.drop 16 := by
    rw [show h.drop 20 = (h.drop 16).drop 4 by rw [List.drop_drop], List.take_append_drop]
  have h12 : (h.drop 12).take 4 ++ h.drop 16 = h.drop 12 := by
    rw [show h.drop 16 = (h.drop 12).drop 4 by rw [List.drop_drop], List.take_append_drop]
  have h8 : (h.drop 8).take 4 ++ h.drop 12 = h.drop 8 := by
    rw [show h.drop 12 = (h.drop 8).drop 4 by rw [List.drop_drop], List.take_append_drop]
  rw [List.append_assoc, List.append_assoc, List.append_assoc, h16, h12, h8, List.take_append_drop]

/-- **A UUID is read back from its text.** -/
theorem parse_text (u : Uuid) : parse u.text = some u := by
  have hhex := @isHex_of_mem_hex 32 u.toNat
  have hmem : ∀ c ∈ grouped (hex 32 u.toNat), isHex c = true ∨ c = '-' := by
    have hpart : ∀ c ∈ hex 32 u.toNat, isHex c = true ∨ c = '-' := fun c hc => Or.inl (hhex c hc).1
    simp only [grouped, List.forall_mem_append, List.forall_mem_cons, or_true, true_and]
    exact ⟨⟨⟨⟨fun c hc => hpart c (List.mem_of_mem_take hc),
      fun c hc => hpart c (List.mem_of_mem_drop (List.mem_of_mem_take hc))⟩,
      fun c hc => hpart c (List.mem_of_mem_drop (List.mem_of_mem_take hc))⟩,
      fun c hc => hpart c (List.mem_of_mem_drop (List.mem_of_mem_take hc))⟩,
      fun c hc => hpart c (List.mem_of_mem_drop hc)⟩
  have hne : ∀ d : Char, isHex d = false → d ≠ '-' → ∀ c ∈ grouped (hex 32 u.toNat), c ≠ d := by
    rintro d hd hdash c hc rfl
    rcases hmem c hc with h | h
    · exact ne_of_isHex h hd rfl
    · exact hdash h
  have hu : 'u' ∉ grouped (hex 32 u.toNat) := fun h => hne 'u' rfl (by decide) _ h rfl
  have hbraces : ∀ c ∈ grouped (hex 32 u.toNat), c ≠ '{' ∧ c ≠ '}' := fun c hc =>
    ⟨hne '{' rfl (by decide) c hc, hne '}' rfl (by decide) c hc⟩
  have hdash : ∀ c ∈ hex 32 u.toNat, c ≠ '-' := fun c hc => ne_of_isHex (hhex c hc).1 rfl
  have hlt : u.toNat < 16 ^ 32 := u.isLt
  have hfilter := filter_grouped hdash
  simp only [parse, text, String.toList_ofList]
  rw [show "urn:".toList = 'u' :: "rn:".toList from rfl, removeAll_of_not_mem hu,
    show "uuid:".toList = 'u' :: "uid:".toList from rfl, removeAll_of_not_mem hu,
    stripBraces_of_not_mem hbraces, hfilter, if_pos (length_hex 32 _), hexInt_hex (by decide) hlt]
  show (if u.toNat < 2 ^ 128 then some (BitVec.ofNat 128 u.toNat) else none) = some u
  rw [if_pos u.isLt, BitVec.ofNat_toNat, BitVec.setWidth_eq]

end Uuid

end GgRelay
