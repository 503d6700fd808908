import Mathlib.Tactic

/-!
Byte strings as lists of bytes, with the operations a line protocol uses on them: lines,
partition, strip, and text in UTF-8.

* `Bytes.splitLines` cuts a stream at each CR LF; `Bytes.splitLines_flatten` puts it together again,
  and `Bytes.splitLines_ends` says how each line ends;
* `Bytes.decode` is strict UTF-8, `Bytes.decodeReplace` puts U+FFFD for what is not well formed.
-/

namespace GgRelay

/-- A byte string. -/
abbrev Bytes := List UInt8

namespace Bytes

/-- An ASCII text. -/
def ofAscii (s : String) : Bytes := s.toList.map fun c => c.toNat.toUInt8

/-- The lines of a stream, each with the CR LF that ends it, and what follows the last of them. -/
def splitLines : Bytes → List Bytes × Bytes
  | [] => ([], [])
  | 13 :: 10 :: bs => ([13, 10] :: (splitLines bs).1, (splitLines bs).2)
  | b :: bs =>
      match splitLines bs with
      | (l :: ls, tail) => ((b :: l) :: ls, tail)
      | ([], tail) => ([], b :: tail)

/-- The lines and the tail are the stream. -/
theorem splitLines_flatten (bs : Bytes) : (splitLines bs).1.flatten ++ (splitLines bs).2 = bs := by
  induction bs using splitLines.induct with
  | case1 => rfl
  | case2 bs ih => simpa [splitLines] using ih
  | case3 b bs hne l ls tail heq ih =>
      rw [splitLines.eq_3 _ _ hne, heq]
      rw [heq] at ih
      simpa using ih
  | case4 b bs hne tail heq ih =>
      rw [splitLines.eq_3 _ _ hne, heq]
      rw [heq] at ih
      simpa using ih

/-- Each line ends in CR LF. -/
theorem splitLines_ends (bs : Bytes) : ∀ l ∈ (splitLines bs).1, [13, 10] <:+ l := by
  induction bs using splitLines.induct with
  | case1 => simp [splitLines]
  | case2 bs ih =>
      rw [splitLines]
      exact List.forall_mem_cons.mpr ⟨List.suffix_refl _, ih⟩
  | case3 b bs hne l ls tail heq ih =>
      rw [splitLines.eq_3 _ _ hne, heq]
      rw [heq] at ih
      obtain ⟨hl, hls⟩ := List.forall_mem_cons.mp ih
      exact List.forall_mem_cons.mpr ⟨hl.trans (List.suffix_cons _ _), hls⟩
  | case4 b bs hne tail heq ih =>
      rw [splitLines.eq_3 _ _ hne, heq]
      exact fun _ h => absurd h List.not_mem_nil

/-- `partition` at a byte: what is before its first occurrence, and what is after it. -/
def partition (sep : UInt8) (bs : Bytes) : Bytes × Bytes :=
  (bs.takeWhile (· ≠ sep), (bs.dropWhile (· ≠ sep)).tail)

/-- `split(b" ", n)`. -/
def splitSpaces : ℕ → Bytes → List Bytes
  | 0, bs => [bs]
  | n + 1, bs =>
      if 32 ∈ bs then (partition 32 bs).1 :: splitSpaces n (partition 32 bs).2 else [bs]

/-- The bytes that `bytes.strip` removes. -/
def isSpaceByte (b : UInt8) : Bool := b == 32 || (9 ≤ b && b ≤ 13)

/-- Remove the bytes of a kind from the end. -/
def rstripOf (p : UInt8 → Bool) (bs : Bytes) : Bytes := (bs.reverse.dropWhile p).reverse

/-- `bytes.strip`. -/
def strip (bs : Bytes) : Bytes := rstripOf isSpaceByte (bs.dropWhile isSpaceByte)

/-- `rstrip(b"\r\n")`. -/
def rstripNewline (bs : Bytes) : Bytes := rstripOf (fun b => b == 13 || b == 10) bs

/-- `bytes.lower`. -/
def lower (bs : Bytes) : Bytes := bs.map fun b => if 65 ≤ b && b ≤ 90 then b + 32 else b

/-! ### UTF-8 -/

/-- A character that has begun: how many bytes are missing, the range of the next one, and the bits
so far. -/
structure Pending where
  missing : ℕ
  lo : ℕ
  hi : ℕ
  bits : ℕ

/-- What a byte beyond ASCII can begin. -/
def lead (b : ℕ) : Option Pending :=
  if b < 0xC2 then none
  else if b ≤ 0xDF then some ⟨0, 0x80, 0xBF, b - 0xC0⟩
  else if b = 0xE0 then some ⟨1, 0xA0, 0xBF, 0⟩
  else if b = 0xED then some ⟨1, 0x80, 0x9F, 0xD⟩
  else if b ≤ 0xEF then some ⟨1, 0x80, 0xBF, b - 0xE0⟩
  else if b = 0xF0 then some ⟨2, 0x90, 0xBF, 0⟩
  else if b ≤ 0xF3 then some ⟨2, 0x80, 0xBF, b - 0xF0⟩
  else if b = 0xF4 then some ⟨2, 0x80, 0x8F, 4⟩
  else none

/-- A byte where a character begins: what it completes, `none` for an error. -/
def beginChar (b : ℕ) : List (Option Char) × Option Pending :=
  if b < 0x80 then ([some (Char.ofNat b)], none)
  else
    match lead b with
    | none => ([none], none)
    | some p => ([], some p)

/-- The next byte; a byte that does not continue a character begins another. -/
def feed (p : Option Pending) (b : ℕ) : List (Option Char) × Option Pending :=
  match p with
  | none => beginChar b
  | some p =>
      if p.lo ≤ b ∧ b ≤ p.hi then
        let bits := p.bits * 64 + (b - 0x80)
        match p.missing with
        | 0 => ([some (Char.ofNat bits)], none)
        | n + 1 => ([], some ⟨n, 0x80, 0xBF, bits⟩)
      else (none :: (beginChar b).1, (beginChar b).2)

/-- The characters of a byte string, `none` for each maximal part that is not well formed. -/
def decodeFrom : Option Pending → Bytes → List (Option Char)
  | none, [] => []
  | some _, [] => [none]
  | p, b :: bs => (feed p b.toNat).1 ++ decodeFrom (feed p b.toNat).2 bs

/-- `bytes.decode()`. -/
def decode (bs : Bytes) : Option (List Char) := (decodeFrom none bs).mapM id

/-- `bytes.decode(errors="replace")`. -/
def decodeReplace (bs : Bytes) : List Char :=
  (decodeFrom none bs).map fun c => c.getD (Char.ofNat 0xFFFD)

/-- What decodes needs no replacement. -/
theorem decodeReplace_of_decode {bs : Bytes} {cs : List Char} (h : decode bs = some cs) :
    decodeReplace bs = cs := by
  have hmap : ∀ (os : List (Option Char)) (cs : List Char), os.mapM id = some cs →
      os.map (fun c => c.getD (Char.ofNat 0xFFFD)) = cs := by
    intro os
    induction os with
    | nil =>
        intro cs h
        simpa using h
    | cons o os ih =>
        intro cs h
        rw [List.mapM_cons] at h
        obtain ⟨c, hc, h⟩ := Option.bind_eq_some_iff.mp h
        obtain ⟨rest, hrest, h⟩ := Option.bind_eq_some_iff.mp h
        obtain rfl := Option.some.inj h
        obtain rfl : o = some c := hc
        rw [List.map_cons, ih rest hrest, Option.getD_some]
  exact hmap _ _ h

/-- `encode()` of an ASCII text. -/
def encodeAscii (cs : List Char) : Bytes := cs.map fun c => c.toNat.toUInt8

/-- An ASCII text is decoded as it was. -/
theorem decode_encodeAscii {cs : List Char} (h : ∀ c ∈ cs, c.toNat < 128) :
    decode (encodeAscii cs) = some cs := by
  rw [decode]
  induction cs with
  | nil => rfl
  | cons c cs ih =>
      obtain ⟨hc, hcs⟩ := List.forall_mem_cons.mp h
      have hbyte : c.toNat.toUInt8.toNat = c.toNat := by
        rw [UInt8.toNat_ofNat']
        exact Nat.mod_eq_of_lt (by omega)
      have hfeed : feed none c.toNat.toUInt8.toNat = ([some c], none) := by
        rw [hbyte, feed, beginChar, if_pos hc, Char.ofNat_toNat]
      rw [encodeAscii, List.map_cons, decodeFrom, hfeed, List.singleton_append, List.mapM_cons]
      rw [encodeAscii] at ih
      rw [ih hcs]
      rfl

example : decode [0x68, 0xC3, 0xA9, 0xE2, 0x82, 0xAC] = some ['h', 'é', '€'] := by decide

end Bytes

end GgRelay
