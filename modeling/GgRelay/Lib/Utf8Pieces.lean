import GgRelay.Lib.Bytes

/-!
Decoding a byte string piece by piece, each piece for itself, with replacement.

* `Bytes.after` is what is pending after a byte string, `decodeFrom_append` cuts the decoder at any
  place;
* `Bytes.Splits` says that a piece ends inside a character that the next one continues;
* `decodeReplace_pieces_iff`: the texts of the pieces are the text of the whole exactly if no piece
  ends so.  A piece that does adds at least one character.
-/

namespace GgRelay.Bytes

/-- What has been completed, from a state. -/
def completed : Option Pending → Bytes → List (Option Char)
  | _, [] => []
  | p, b :: bs => (feed p b.toNat).1 ++ completed (feed p b.toNat).2 bs

/-- What is pending after a byte string. -/
def after : Option Pending → Bytes → Option Pending
  | p, [] => p
  | p, b :: bs => after (feed p b.toNat).2 bs

/-- A character is continued by bytes from `0x80` to `0xBF`. -/
def Pending.Valid (p : Pending) : Prop := 0x80 ≤ p.lo ∧ p.hi ≤ 0xBF

lemma decodeFrom_append (p : Option Pending) (as bs : Bytes) :
    decodeFrom p (as ++ bs) = completed p as ++ decodeFrom (after p as) bs := by
  induction as generalizing p with
  | nil => rfl
  | cons a as ih =>
      rw [List.cons_append, decodeFrom, ih, completed, after, List.append_assoc]

lemma lead_valid {b : ℕ} {p : Pending} (h : lead b = some p) : p.Valid := by
  rw [lead] at h
  split_ifs at h <;> cases h <;> exact ⟨Nat.le_of_ble_eq_true rfl, Nat.le_of_ble_eq_true rfl⟩

lemma beginChar_valid {b : ℕ} {p : Pending} (h : (beginChar b).2 = some p) : p.Valid := by
  rw [beginChar] at h
  split_ifs at h
  cases hlead : lead b with
  | none =>
      rw [hlead] at h
      cases h
  | some q =>
      rw [hlead] at h
      cases h
      exact lead_valid hlead

lemma feed_valid {p : Option Pending} {b : ℕ} {q : Pending} (h : (feed p b).2 = some q) :
    q.Valid := by
  cases p with
  | none => exact beginChar_valid h
  | some p =>
      rw [feed] at h
      split_ifs at h
      · obtain ⟨missing, lo, hi, bits⟩ := p
        cases missing with
        | zero => cases h
        | succ n =>
            cases h
            exact ⟨le_rfl, le_rfl⟩
      · exact beginChar_valid h

lemma after_valid {p : Option Pending} (hp : ∀ q ∈ p, q.Valid) (bs : Bytes) :
    ∀ q ∈ after p bs, q.Valid := by
  induction bs generalizing p with
  | nil => exact hp
  | cons b bs ih => exact ih fun q hq => feed_valid hq

/-- A byte continues what is pending. -/
def Pending.Takes (p : Pending) (b : UInt8) : Prop := p.lo ≤ b.toNat ∧ b.toNat ≤ p.hi

instance (p : Pending) (b : UInt8) : Decidable (p.Takes b) := inferInstanceAs (Decidable (_ ∧ _))

/-- What does not continue a character begins anew. -/
lemma decodeFrom_of_not_takes {p : Pending} {b : UInt8} (h : ¬p.Takes b) (bs : Bytes) :
    decodeFrom (some p) (b :: bs) = none :: decodeFrom none (b :: bs) := by
  have hfeed : feed (some p) b.toNat = (none :: (beginChar b.toNat).1, (beginChar b.toNat).2) := by
    exact if_neg h
  rw [decodeFrom, hfeed, decodeFrom, feed]
  rfl

/-- A byte that continues a character is an error where none is pending. -/
lemma decodeFrom_of_takes {p : Pending} (hp : p.Valid) {b : UInt8} (h : p.Takes b) (bs : Bytes) :
    decodeFrom none (b :: bs) = none :: decodeFrom none bs := by
  obtain ⟨hlo, hhi⟩ := hp
  obtain ⟨hle, hle'⟩ := h
  have hfeed : feed none b.toNat = ([none], none) := by
    have hlead : lead b.toNat = none := if_pos (by omega)
    rw [feed, beginChar, if_neg (by omega), hlead]
  rw [decodeFrom, hfeed]
  rfl

/-- A pending character adds at most one to what follows, and nothing if it is continued. -/
lemma length_decodeFrom_le {p : Pending} (hp : p.Valid) (bs : Bytes) :
    (decodeFrom (some p) bs).length ≤ (decodeFrom none bs).length + 1 ∧
      ∀ b r, bs = b :: r → p.Takes b →
        (decodeFrom (some p) bs).length ≤ (decodeFrom none bs).length := by
  induction bs generalizing p with
  | nil => exact ⟨le_rfl, nofun⟩
  | cons b bs ih =>
      have htakes : p.Takes b →
          (decodeFrom (some p) (b :: bs)).length ≤ (decodeFrom none (b :: bs)).length := by
        intro h
        rw [decodeFrom_of_takes hp h, List.length_cons]
        obtain ⟨missing, lo, hi, bits⟩ := p
        cases missing with
        | zero =>
            have hfeed : feed (some ⟨0, lo, hi, bits⟩) b.toNat
                = ([some (Char.ofNat (bits * 64 + (b.toNat - 0x80)))], none) := by
              exact if_pos h
            rw [decodeFrom, hfeed, List.singleton_append, List.length_cons]
        | succ n =>
            have hfeed : feed (some ⟨n + 1, lo, hi, bits⟩) b.toNat
                = ([], some ⟨n, 0x80, 0xBF, bits * 64 + (b.toNat - 0x80)⟩) := by
              exact if_pos h
            rw [decodeFrom, hfeed, List.nil_append]
            exact (ih ⟨le_rfl, le_rfl⟩).1
      refine ⟨?_, ?_⟩
      · by_cases h : p.Takes b
        · exact (htakes h).trans (Nat.le_succ _)
        · rw [decodeFrom_of_not_takes h, List.length_cons]
      · rintro b' r heq h
        cases heq
        exact htakes h

/-! ### Pieces -/

/-- A piece ends inside a character that the next piece continues. -/
def Splits (as bs : Bytes) : Prop := ∃ p ∈ after none as, ∃ b ∈ bs.head?, p.Takes b

lemma decodeFrom_none_eq (as : Bytes) :
    decodeFrom none as = completed none as ++ decodeFrom (after none as) [] := by
  conv_lhs => rw [← List.append_nil as, decodeFrom_append]

/-- Where no character is split, the pieces are decoded as the whole. -/
lemma decodeFrom_of_not_splits {as bs : Bytes} (h : ¬Splits as bs) :
    decodeFrom none (as ++ bs) = decodeFrom none as ++ decodeFrom none bs := by
  rw [decodeFrom_append, decodeFrom_none_eq as, List.append_assoc]
  congr 1
  cases hafter : after none as with
  | none => rfl
  | some p =>
      cases bs with
      | nil => rfl
      | cons b bs =>
          have hnot : ¬p.Takes b := fun ht => h ⟨p, hafter, b, rfl, ht⟩
          exact decodeFrom_of_not_takes hnot bs

/-- Where a character is split, the pieces have more characters than the whole. -/
lemma length_decodeFrom_of_splits {as bs : Bytes} (h : Splits as bs) :
    (decodeFrom none (as ++ bs)).length
      < (decodeFrom none as).length + (decodeFrom none bs).length := by
  obtain ⟨p, hp, b, hb, htakes⟩ := h
  have hvalid : p.Valid := after_valid (by simp) as p hp
  obtain ⟨r, rfl⟩ : ∃ r, bs = b :: r := List.head?_eq_some_iff.mp hb
  have hle := (length_decodeFrom_le hvalid (b :: r)).2 b r rfl htakes
  rw [Option.mem_def] at hp
  rw [decodeFrom_append, decodeFrom_none_eq as, hp, List.length_append, List.length_append]
  simp only [decodeFrom, List.length_singleton]
  simp only [decodeFrom] at hle
  omega

/-- The text of the whole is at most as long as the texts of the pieces. -/
lemma length_decodeReplace_le (pieces : List Bytes) :
    (decodeReplace pieces.flatten).length ≤ (pieces.flatMap decodeReplace).length := by
  induction pieces with
  | nil => exact le_rfl
  | cons c cs ih =>
      rw [List.flatten_cons, List.flatMap_cons, List.length_append]
      simp only [decodeReplace, List.length_map] at ih ⊢
      by_cases h : Splits c cs.flatten
      · have := length_decodeFrom_of_splits h
        omega
      · rw [decodeFrom_of_not_splits h, List.length_append]
        omega

/-- What splits two pieces is seen at the first byte of the second. -/
lemma splits_flatten_cons {c d : Bytes} (hd : d ≠ []) (cs : List Bytes) :
    Splits c (d :: cs).flatten ↔ Splits c d := by
  obtain ⟨b, r, rfl⟩ := List.exists_cons_of_ne_nil hd
  rfl

lemma decodeReplace_of_not_splits {as bs : Bytes} (h : ¬Splits as bs) :
    decodeReplace (as ++ bs) = decodeReplace as ++ decodeReplace bs := by
  rw [decodeReplace, decodeFrom_of_not_splits h, List.map_append]
  rfl

/-- One piece more. -/
lemma decodeReplace_pieces_cons (c : Bytes) (cs : List Bytes) :
    (c :: cs).flatMap decodeReplace = decodeReplace (c :: cs).flatten ↔
      ¬Splits c cs.flatten ∧ cs.flatMap decodeReplace = decodeReplace cs.flatten := by
  rw [List.flatMap_cons, List.flatten_cons]
  constructor
  · intro h
    have hclean : ¬Splits c cs.flatten := by
      intro hsplits
      have hlt := length_decodeFrom_of_splits hsplits
      have hle := length_decodeReplace_le cs
      have hlength := congrArg List.length h
      simp only [decodeReplace, List.length_append, List.length_map] at hle hlength
      omega
    rw [decodeReplace_of_not_splits hclean] at h
    exact ⟨hclean, List.append_cancel_left h⟩
  · rintro ⟨hclean, h⟩
    rw [decodeReplace_of_not_splits hclean, h]

/-- **The texts of the pieces are the text of the whole exactly if no piece ends inside a character
that the next piece continues.** -/
theorem decodeReplace_pieces_iff {pieces : List Bytes} (hne : ∀ c ∈ pieces, c ≠ []) :
    pieces.flatMap decodeReplace = decodeReplace pieces.flatten ↔
      pieces.IsChain fun c d => ¬Splits c d := by
  induction pieces with
  | nil => simp [decodeReplace, decodeFrom]
  | cons c cs ih =>
      obtain ⟨-, hcs⟩ := List.forall_mem_cons.mp hne
      rw [decodeReplace_pieces_cons, ih hcs]
      cases cs with
      | nil => simp [Splits]
      | cons d cs =>
          rw [splits_flatten_cons (List.forall_mem_cons.mp hcs).1, List.isChain_cons_cons]

end GgRelay.Bytes
