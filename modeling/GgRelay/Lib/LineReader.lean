import GgRelay.Lib.Bytes
import GgRelay.Lib.System

/-!
A buffered reader of lines, as an event loop drives it: bytes arrive in chunks at any time, a call
looks for the first line in the buffer and waits if there is none yet, and looks again when it is
woken. A line beyond the limit is an overrun, which costs what has arrived of it.

* `splitLF` cuts a stream at each line feed, `splitLF_unique` says that there is one way to cut it;
* `LineReader.system` is the reader as a transition system; a configuration says what a call makes of
  a line, of an overrun and of a lost connection;
* `LineReader.Synced` holds of every reader whose stream has no line beyond the limit: what was
  answered and what is left in the buffer are the stream (`synced`);
* `exists_drained` is the run that answers every line of a given stream.
-/

namespace GgRelay

/-- A line feed. -/
abbrev LF : UInt8 := 10

namespace Bytes

/-- The lines of a stream, each with the line feed that ends it, and what follows the last of them. -/
def splitLF : Bytes → List Bytes × Bytes
  | [] => ([], [])
  | b :: bs =>
      if b = LF then ([b] :: (splitLF bs).1, (splitLF bs).2)
      else
        match splitLF bs with
        | (l :: ls, tail) => ((b :: l) :: ls, tail)
        | ([], tail) => ([], b :: tail)

/-- A line with its line feed. -/
def IsLine (l : Bytes) : Prop := ∃ b, l = b ++ [LF] ∧ LF ∉ b

/-- The parts a stream is cut into. -/
structure Cut (bs : Bytes) (ls : List Bytes) (tail : Bytes) : Prop where
  eq : bs = ls.flatten ++ tail
  isLine : ∀ l ∈ ls, IsLine l
  tail_open : LF ∉ tail

variable {bs cs l tail : Bytes} {ls ks : List Bytes}

lemma splitLF_open (h : LF ∉ tail) : splitLF tail = ([], tail) := by
  induction tail with
  | nil => rfl
  | cons b tail ih =>
      rw [List.mem_cons, not_or] at h
      rw [splitLF, if_neg (Ne.symm h.1), ih h.2]

lemma splitLF_line (h : IsLine l) (bs : Bytes) :
    splitLF (l ++ bs) = (l :: (splitLF bs).1, (splitLF bs).2) := by
  obtain ⟨b, rfl, hb⟩ := h
  induction b with
  | nil => rfl
  | cons c b ih =>
      rw [List.mem_cons, not_or] at hb
      rw [List.cons_append, List.cons_append, splitLF, if_neg (Ne.symm hb.1), ih hb.2]

/-- **There is one way to cut a stream.** -/
theorem splitLF_unique (h : Cut bs ls tail) : splitLF bs = (ls, tail) := by
  obtain ⟨rfl, hlines, hopen⟩ := h
  induction ls with
  | nil => exact splitLF_open hopen
  | cons l ls ih =>
      obtain ⟨hl, hls⟩ := List.forall_mem_cons.mp hlines
      rw [List.flatten_cons, List.append_assoc, splitLF_line hl, ih hls]

theorem cut_splitLF (bs : Bytes) : Cut bs (splitLF bs).1 (splitLF bs).2 := by
  induction bs with
  | nil => exact ⟨rfl, nofun, List.not_mem_nil⟩
  | cons b bs ih =>
      obtain ⟨heq, hlines, hopen⟩ := ih
      rw [splitLF]
      split_ifs with hb
      · refine ⟨?_, List.forall_mem_cons.mpr ⟨⟨[], by rw [hb]; rfl, List.not_mem_nil⟩, hlines⟩, hopen⟩
        rw [List.flatten_cons, List.append_assoc, ← heq]
        rfl
      · cases hsplit : splitLF bs with
        | mk ls tail =>
            rw [hsplit] at heq hlines hopen
            cases ls with
            | nil =>
                refine ⟨congrArg (b :: ·) heq, nofun, ?_⟩
                rw [List.mem_cons, not_or]
                exact ⟨Ne.symm hb, hopen⟩
            | cons l ls =>
                obtain ⟨⟨c, rfl, hc⟩, hls⟩ := List.forall_mem_cons.mp hlines
                refine ⟨congrArg (b :: ·) heq, List.forall_mem_cons.mpr ⟨⟨b :: c, rfl, ?_⟩, hls⟩, hopen⟩
                rw [List.mem_cons, not_or]
                exact ⟨Ne.symm hb, hc⟩

/-- The lines of a part of a stream come first in the stream. -/
lemma lines_initial (hks : ∀ k ∈ ks, IsLine k) (h : ks.flatten ++ cs = bs) :
    (splitLF bs).1 = ks ++ (splitLF cs).1 ∧ (splitLF bs).2 = (splitLF cs).2 := by
  subst h
  induction ks with
  | nil => exact ⟨rfl, rfl⟩
  | cons k ks ih =>
      obtain ⟨hk, hks⟩ := List.forall_mem_cons.mp hks
      rw [List.flatten_cons, List.append_assoc, splitLF_line hk, (ih hks).1, (ih hks).2]
      exact ⟨rfl, rfl⟩

/-- The first line, and what follows it. -/
def firstLine (bs : Bytes) : Option (Bytes × Bytes) :=
  match splitLF bs with
  | (l :: ls, tail) => some (l, ls.flatten ++ tail)
  | ([], _) => none

lemma firstLine_some {rest : Bytes} (h : firstLine bs = some (l, rest)) :
    IsLine l ∧ bs = l ++ rest := by
  obtain ⟨heq, hlines, -⟩ := cut_splitLF bs
  rw [firstLine] at h
  cases hsplit : splitLF bs with
  | mk ls tail =>
      rw [hsplit] at h heq hlines
      cases ls with
      | nil => cases h
      | cons k ks =>
          cases h
          refine ⟨hlines _ List.mem_cons_self, ?_⟩
          rw [heq, List.flatten_cons, List.append_assoc]

lemma firstLine_none (h : firstLine bs = none) : LF ∉ bs := by
  obtain ⟨heq, -, hopen⟩ := cut_splitLF bs
  rw [firstLine] at h
  cases hsplit : splitLF bs with
  | mk ls tail =>
      rw [hsplit] at h heq hopen
      cases ls with
      | nil =>
          rw [heq]
          exact hopen
      | cons k ks => cases h

lemma firstLine_line (h : IsLine l) (bs : Bytes) : firstLine (l ++ bs) = some (l, bs) := by
  rw [firstLine, splitLF_line h]
  simp only [← (cut_splitLF bs).eq]

lemma firstLine_open (h : LF ∉ bs) : firstLine bs = none := by
  rw [firstLine, splitLF_open h]

/-- Never more than so many bytes without a line feed. -/
def LinesWithin (limit : ℕ) (bs : Bytes) : Prop := ∀ b, b <:+: bs → LF ∉ b → b.length ≤ limit

lemma LinesWithin.of_append (h : LinesWithin limit (bs ++ cs)) : LinesWithin limit bs :=
  fun b hb => h b (hb.trans (List.infix_append [] bs cs))

/-- Bytes without a line feed lie in one line. -/
lemma length_of_infix {b : Bytes} (hlines : ∀ l ∈ ls, IsLine l) (hb : b <:+: ls.flatten ++ tail)
    (hopen : LF ∉ b) : (∃ l ∈ ls, b.length + 1 ≤ l.length) ∨ b.length ≤ tail.length := by
  induction ls with
  | nil => exact Or.inr hb.length_le
  | cons l ls ih =>
      obtain ⟨⟨c, rfl, hc⟩, hls⟩ := List.forall_mem_cons.mp hlines
      have hlater : b <:+: ls.flatten ++ tail →
          (∃ l ∈ (c ++ [LF]) :: ls, b.length + 1 ≤ l.length) ∨ b.length ≤ tail.length := by
        intro h
        refine (ih hls h).imp_left ?_
        rintro ⟨l, hl, hlen⟩
        exact ⟨l, List.mem_cons_of_mem _ hl, hlen⟩
      obtain ⟨s, t, hst⟩ := hb
      rw [List.flatten_cons, List.append_assoc s b t, List.append_assoc (c ++ [LF])] at hst
      rcases List.append_eq_append_iff.mp hst with ⟨as, hl, hrest⟩ | ⟨ds, -, hrest⟩
      · rcases List.append_eq_append_iff.mp hrest with ⟨es, has, -⟩ | ⟨es, hbs, hes⟩
        · -- the bytes lie in this line
          refine Or.inl ⟨c ++ [LF], List.mem_cons_self, ?_⟩
          have hlen := congrArg List.length hl
          rw [has] at hlen
          simp only [List.length_append, List.length_singleton] at hlen ⊢
          rcases List.eq_nil_or_concat' es with rfl | ⟨es, e, rfl⟩
          · rcases List.eq_nil_or_concat' b with rfl | ⟨b, e, rfl⟩
            · simp
            · rw [has, List.append_nil, ← List.append_assoc] at hl
              have he : LF = e := by
                have := List.append_inj_right' hl rfl
                simpa using this
              exact absurd (he ▸ List.mem_append_right _ List.mem_cons_self) hopen
          · simp only [List.length_append, List.length_singleton] at hlen
            omega
        · -- they begin after it: what they share with it is empty
          rcases List.eq_nil_or_concat' as with rfl | ⟨as, a, rfl⟩
          · exact hlater ⟨[], t, by simpa [hbs] using hes.symm⟩
          · rw [← List.append_assoc] at hl
            have ha : LF = a := by
              have := List.append_inj_right' hl rfl
              simpa using this
            refine absurd ?_ hopen
            rw [hbs, ← ha]
            simp
      · exact hlater ⟨ds, t, by rw [List.append_assoc, hrest]⟩

/-- The limit, line by line. -/
lemma linesWithin_iff {limit : ℕ} (h : Cut bs ls tail) :
    LinesWithin limit bs ↔ (∀ l ∈ ls, l.length ≤ limit + 1) ∧ tail.length ≤ limit := by
  obtain ⟨rfl, hlines, hopen⟩ := h
  constructor
  · intro h
    refine ⟨fun l hl => ?_, h tail (List.suffix_append _ _).isInfix hopen⟩
    obtain ⟨b, rfl, hb⟩ := hlines l hl
    obtain ⟨as, cs, rfl⟩ := List.append_of_mem hl
    have := h b ⟨as.flatten, [LF] ++ cs.flatten ++ tail, by simp⟩ hb
    simpa using this
  · rintro ⟨hls, htail⟩ b hb hb'
    rcases length_of_infix hlines hb hb' with ⟨l, hl, hlen⟩ | hlen
    · have := hls l hl
      omega
    · omega

end Bytes

/-! ### The reader -/

open Bytes

/-- What a call makes of what it finds. -/
structure LineConfig (α : Type) where
  limit : ℕ
  /-- a line, with its line feed; at the end of the stream what is left, which may be empty -/
  onLine : Bytes → α
  onOverrun : α
  onLost : α

/-- A reader, with the calls that were made, what they returned, and all that has arrived. -/
structure LineReader (α : Type) where
  buffer : Bytes
  eof : Bool
  /-- the connection was lost -/
  lost : Bool
  /-- a call waits for more -/
  waiting : Bool
  calls : ℕ
  log : List α
  got : Bytes

namespace LineReader

variable {α : Type} (c : LineConfig α)

/-- A reader of a stream that has not begun. -/
def fresh : LineReader α := ⟨[], false, false, false, 0, [], []⟩

/-- The call returns. -/
def answer (r : LineReader α) (a : α) (buffer : Bytes) : LineReader α :=
  { r with log := r.log ++ [a], buffer, waiting := false }

/-- The call looks at the buffer. -/
def look (r : LineReader α) : LineReader α :=
  if r.lost then r.answer c.onLost r.buffer
  else
    match firstLine r.buffer with
    | some (l, rest) =>
        if l.length ≤ c.limit + 1 then r.answer (c.onLine l) rest else r.answer c.onOverrun rest
    | none =>
        -- an overrun that is found before its line feed: what has arrived of the line goes
        if c.limit < r.buffer.length then r.answer c.onOverrun []
        else if r.eof then r.answer (c.onLine r.buffer) []
        else { r with waiting := true }

/-- What happens to a reader. -/
inductive Event where
  | data (bs : Bytes)
  | eof
  | lose
  | call
  /-- the waiting call is woken -/
  | resume

/-- One step; no call is made while another waits. -/
def step (r : LineReader α) : Event → Option (LineReader α)
  | .data bs => if r.eof then none else some { r with buffer := r.buffer ++ bs, got := r.got ++ bs }
  | .eof => some { r with eof := true }
  | .lose => some { r with lost := true }
  | .call => if r.waiting then none else some (look c { r with calls := r.calls + 1 })
  | .resume => if r.waiting then some (look c r) else none

/-- The reader as a transition system. -/
def system : System (LineReader α) Event where
  init r := r = fresh
  step := step c

/-- A reader in step with its stream, without the answers that a lost connection gave at the end:
its answers are those to the first lines, and what is left is in the buffer; or the stream is at
its end, and further calls found nothing. -/
inductive InStep (r : LineReader α) (answers : List α) : Prop
  | reading {ls : List Bytes} (hlines : ∀ l ∈ ls, IsLine l) (hgot : r.got = ls.flatten ++ r.buffer)
      (hanswers : answers = ls.map c.onLine)
  | drained {ls : List Bytes} {tail : Bytes} {k : ℕ} (heof : r.eof = true) (hbuffer : r.buffer = [])
      (hcut : Cut r.got ls tail)
      (hanswers : answers = ls.map c.onLine ++ c.onLine tail :: List.replicate k (c.onLine []))

/-- A reader in step with its stream. -/
def Synced (r : LineReader α) : Prop :=
  ∃ answers j, r.log = answers ++ List.replicate j c.onLost ∧ (j ≠ 0 → r.lost = true) ∧
    InStep c r answers

variable {c} {r s : LineReader α}

/-- A look keeps a reader in step. -/
lemma synced_look (h : Synced c r) (hwithin : LinesWithin c.limit r.got) : Synced c (look c r) := by
  obtain ⟨answers, j, hlog, hlost, hstep⟩ := h
  rw [look]
  by_cases hl : r.lost = true
  · rw [if_pos hl]
    refine ⟨answers, j + 1, ?_, fun _ => hl, ?_⟩
    · rw [List.replicate_succ', ← List.append_assoc, ← hlog]
      rfl
    · cases hstep with
      | reading hlines hgot hanswers => exact .reading hlines hgot hanswers
      | drained heof hbuffer hcut hanswers => exact .drained heof hbuffer hcut hanswers
  · rw [if_neg hl]
    obtain rfl : j = 0 := by
      by_contra hj
      exact hl (hlost hj)
    rw [List.replicate_zero, List.append_nil] at hlog
    -- the answer `a` takes the reader on
    have hnext : ∀ {a : α} {rest : Bytes}, InStep c (r.answer a rest) (r.log ++ [a]) →
        Synced c (r.answer a rest) := fun h => ⟨_, 0, by simp [answer], nofun, h⟩
    cases hstep with
    | @reading ls hlines hgot hanswers =>
        have hbuffer : ∀ b, b <:+: r.buffer → LF ∉ b → b.length ≤ c.limit := fun b hb =>
          hwithin b (hb.trans (hgot ▸ (List.suffix_append _ _).isInfix))
        cases hfirst : firstLine r.buffer with
        | some q =>
            obtain ⟨l, rest⟩ := q
            obtain ⟨hline, hcons⟩ := firstLine_some hfirst
            have hlength : l.length ≤ c.limit + 1 := by
              obtain ⟨b, rfl, hb⟩ := hline
              have := hbuffer b ⟨[], [LF] ++ rest, by simp [hcons]⟩ hb
              simpa using this
            simp only [if_pos hlength]
            have hlines' : ∀ k ∈ ls ++ [l], IsLine k := by
              rw [List.forall_mem_append]
              exact ⟨hlines, List.forall_mem_singleton.mpr hline⟩
            refine hnext (.reading hlines' ?_ ?_)
            · rw [List.flatten_append, List.flatten_singleton, List.append_assoc]
              exact hgot.trans (congrArg _ hcons)
            · rw [hlog, hanswers, List.map_append]
              rfl
        | none =>
            have hopen := firstLine_none hfirst
            have hlength := hbuffer r.buffer (List.infix_refl _) hopen
            simp only [if_neg (Nat.not_lt.mpr hlength)]
            split_ifs with heof
            · refine hnext (.drained (k := 0) heof rfl ⟨hgot, hlines, hopen⟩ ?_)
              rw [hlog, hanswers]
              rfl
            · exact ⟨answers, 0, by simp [hlog], nofun, .reading hlines hgot hanswers⟩
    | @drained ls tail k heof hbuffer hcut hanswers =>
        rw [hbuffer, firstLine_open List.not_mem_nil]
        simp only [List.length_nil, Nat.not_lt_zero, if_false, heof, if_true]
        refine hnext (.drained (k := k + 1) heof rfl hcut ?_)
        rw [hlog, hanswers, List.replicate_succ', List.append_assoc, List.cons_append]

variable (c r) in
/-- A look returns, or it waits because the stream goes on. -/
lemma look_cases : (∃ a rest, look c r = r.answer a rest) ∨
    r.eof = false ∧ look c r = { r with waiting := true } := by
  rw [look]
  by_cases hl : r.lost = true
  · rw [if_pos hl]
    exact Or.inl ⟨_, _, rfl⟩
  · rw [if_neg hl]
    cases firstLine r.buffer with
    | some q =>
        refine Or.inl ?_
        simp only
        split_ifs
        · exact ⟨_, _, rfl⟩
        · exact ⟨_, _, rfl⟩
    | none =>
        simp only
        split_ifs with hlimit heof
        · exact Or.inl ⟨_, _, rfl⟩
        · exact Or.inl ⟨_, _, rfl⟩
        · exact Or.inr ⟨Bool.eq_false_iff.mpr heof, rfl⟩

lemma look_got : (look c r).got = r.got := by
  rcases look_cases c r with ⟨a, rest, h⟩ | ⟨-, h⟩
  · rw [h]
    rfl
  · rw [h]

/-- **While no line is beyond the limit, the reader is in step with its stream**, however the bytes
arrive. -/
theorem synced (h : (system c).Reachable r) (hwithin : LinesWithin c.limit r.got) : Synced c r := by
  revert hwithin
  refine System.ReachableVia.invariant (I := fun r => LinesWithin c.limit r.got → Synced c r) ?_ ?_ h
  · rintro r rfl -
    exact ⟨[], 0, rfl, nofun, .reading (List.forall_mem_nil _) rfl rfl⟩
  · intro r e s ih _ hs hwithin
    cases e with
    | data bs =>
        simp only [system, step] at hs
        split_ifs at hs with heof
        cases hs
        obtain ⟨answers, j, hlog, hlost, hstep⟩ := ih hwithin.of_append
        refine ⟨answers, j, hlog, hlost, ?_⟩
        cases hstep with
        | reading hlines hgot hanswers =>
            refine .reading hlines ?_ hanswers
            rw [← List.append_assoc, ← hgot]
        | drained heof' => exact absurd heof' heof
    | eof =>
        cases hs
        obtain ⟨answers, j, hlog, hlost, hstep⟩ := ih hwithin
        refine ⟨answers, j, hlog, hlost, ?_⟩
        cases hstep with
        | reading hlines hgot hanswers => exact .reading hlines hgot hanswers
        | drained heof hbuffer hcut hanswers => exact .drained rfl hbuffer hcut hanswers
    | lose =>
        cases hs
        obtain ⟨answers, j, hlog, hlost, hstep⟩ := ih hwithin
        refine ⟨answers, j, hlog, fun _ => rfl, ?_⟩
        cases hstep with
        | reading hlines hgot hanswers => exact .reading hlines hgot hanswers
        | drained heof hbuffer hcut hanswers => exact .drained heof hbuffer hcut hanswers
    | call =>
        simp only [system, step] at hs
        split_ifs at hs
        cases hs
        rw [look_got] at hwithin
        refine synced_look ?_ hwithin
        obtain ⟨answers, j, hlog, hlost, hstep⟩ := ih hwithin
        refine ⟨answers, j, hlog, hlost, ?_⟩
        cases hstep with
        | reading hlines hgot hanswers => exact .reading hlines hgot hanswers
        | drained heof hbuffer hcut hanswers => exact .drained heof hbuffer hcut hanswers
    | resume =>
        simp only [system, step] at hs
        split_ifs at hs
        cases hs
        rw [look_got] at hwithin
        exact synced_look (ih hwithin) hwithin

/-- What a call makes of a part of a stream that has arrived whole. -/
def outcome (c : LineConfig α) (limit : ℕ) (p : Bytes) : α :=
  if p.length ≤ limit then c.onLine p else c.onOverrun

/-- What the calls make of a stream that has arrived whole. -/
def outcomes (c : LineConfig α) (bs : Bytes) : List α :=
  (splitLF bs).1.map (outcome c (c.limit + 1)) ++ [outcome c c.limit (splitLF bs).2]

lemma look_line {l rest : Bytes} (hlost : r.lost = false) (hl : IsLine l)
    (hbuffer : r.buffer = l ++ rest) :
    look c r = r.answer (outcome c (c.limit + 1) l) rest := by
  rw [look, hlost, hbuffer, firstLine_line hl, outcome]
  simp only [Bool.false_eq_true, if_false]
  split_ifs <;> rfl

lemma look_tail (hlost : r.lost = false) (heof : r.eof = true) (hopen : LF ∉ r.buffer) :
    look c r = r.answer (outcome c c.limit r.buffer) [] := by
  rw [look, hlost, firstLine_open hopen, outcome, heof]
  simp only [Bool.false_eq_true, if_false, if_true]
  by_cases hlimit : r.buffer.length ≤ c.limit
  · rw [if_neg (Nat.not_lt.mpr hlimit), if_pos hlimit]
  · rw [if_pos (Nat.lt_of_not_le hlimit), if_neg hlimit]

/-- A call that finds something returns at once. -/
lemma reachable_call {a : α} {rest : Bytes} (h : (system c).Reachable r)
    (hwaiting : r.waiting = false)
    (hlook : look c { r with calls := r.calls + 1 }
      = answer { r with calls := r.calls + 1 } a rest) :
    (system c).Reachable (answer { r with calls := r.calls + 1 } a rest) := by
  refine System.ReachableVia.step (l := Event.call) h trivial ?_
  rw [← hlook]
  exact if_neg (by simp [hwaiting])

/-- **Every part of a stream that has arrived is answered.** -/
theorem exists_drained (c : LineConfig α) (bs : Bytes) : ∃ s, (system c).Reachable s ∧
    s.got = bs ∧ s.eof = true ∧ s.lost = false ∧ s.log = outcomes c bs := by
  have hcalls : ∀ (ls : List Bytes) (tail : Bytes), (∀ l ∈ ls, IsLine l) → LF ∉ tail →
      ∀ r, (system c).Reachable r → r.waiting = false → r.lost = false → r.eof = true →
        r.buffer = ls.flatten ++ tail → ∃ s, (system c).Reachable s ∧ s.got = r.got ∧
          s.eof = true ∧ s.lost = false ∧
          s.log = r.log ++ (ls.map (outcome c (c.limit + 1)) ++ [outcome c c.limit tail]) := by
    intro ls tail hls hopen
    induction ls with
    | nil =>
        intro r hr hwaiting hlost heof hbuffer
        have hlook := @look_tail α c { r with calls := r.calls + 1 } hlost heof (hbuffer ▸ hopen)
        rw [List.flatten_nil, List.nil_append] at hbuffer
        subst hbuffer
        exact ⟨_, reachable_call hr hwaiting hlook, rfl, heof, hlost, rfl⟩
    | cons l ls ih =>
        obtain ⟨hl, hls⟩ := List.forall_mem_cons.mp hls
        intro r hr hwaiting hlost heof hbuffer
        rw [List.flatten_cons, List.append_assoc] at hbuffer
        have hlook := @look_line α c { r with calls := r.calls + 1 } _ _ hlost hl hbuffer
        obtain ⟨s, hs, hgot, hseof, hslost, hlog⟩ := ih hls _ (reachable_call hr hwaiting hlook) rfl
          hlost heof rfl
        refine ⟨s, hs, hgot, hseof, hslost, ?_⟩
        rw [hlog, List.map_cons, List.cons_append]
        exact List.append_assoc _ _ _
  have hfresh : (system c).Reachable (fresh : LineReader α) := .init rfl
  have hdata : (system c).Reachable { (fresh : LineReader α) with buffer := bs, got := bs } :=
    .step (l := .data bs) hfresh trivial rfl
  have heof : (system c).Reachable
      { (fresh : LineReader α) with buffer := bs, got := bs, eof := true } :=
    .step (l := .eof) hdata trivial rfl
  obtain ⟨hcut, hls, hopen⟩ := cut_splitLF bs
  exact hcalls _ _ hls hopen _ heof rfl rfl rfl hcut

/-- The parts of a stream: its lines, and what follows the last of them. -/
def parts (bs : Bytes) : List Bytes := (splitLF bs).1 ++ [(splitLF bs).2]

lemma linesWithin_iff_parts {limit : ℕ} {bs : Bytes} :
    LinesWithin limit bs ↔
      (∀ l ∈ (splitLF bs).1, l.length ≤ limit + 1) ∧ (splitLF bs).2.length ≤ limit :=
  linesWithin_iff (cut_splitLF bs)

/-- The answers of a reader in step are answers to parts of its stream. -/
lemma Synced.mem_log (h : Synced c r) {a : α} (ha : a ∈ r.log) :
    a = c.onLost ∨ a = c.onLine [] ∨ ∃ p ∈ parts r.got, a = c.onLine p := by
  obtain ⟨answers, j, hlog, -, hstep⟩ := h
  rw [hlog, List.mem_append] at ha
  rcases ha with ha | ha
  · cases hstep with
    | @reading ls hlines hgot hanswers =>
        rw [hanswers] at ha
        obtain ⟨l, hl, rfl⟩ := List.mem_map.mp ha
        refine Or.inr (Or.inr ⟨l, List.mem_append_left _ ?_, rfl⟩)
        rw [(lines_initial hlines hgot.symm).1]
        exact List.mem_append_left _ hl
    | @drained ls tail k heof hbuffer hcut hanswers =>
        rw [hanswers, List.mem_append, List.mem_cons] at ha
        rw [parts, splitLF_unique hcut]
        rcases ha with ha | rfl | ha
        · obtain ⟨l, hl, rfl⟩ := List.mem_map.mp ha
          exact Or.inr (Or.inr ⟨l, List.mem_append_left _ hl, rfl⟩)
        · exact Or.inr (Or.inr ⟨tail, List.mem_append_right _ List.mem_cons_self, rfl⟩)
        · exact Or.inr (Or.inl (List.eq_of_mem_replicate ha))
  · exact Or.inl (List.eq_of_mem_replicate ha)

/-- The answers of a reader in step, in their order. -/
lemma Synced.log_eq (h : Synced c r) (hlost : r.lost = false) :
    r.log <+: (splitLF r.got).1.map c.onLine ∨ r.eof = true ∧ ∃ k, r.log =
      (splitLF r.got).1.map c.onLine ++ c.onLine (splitLF r.got).2 ::
        List.replicate k (c.onLine []) := by
  obtain ⟨answers, j, hlog, hj, hstep⟩ := h
  obtain rfl : j = 0 := by
    by_contra hne
    rw [hj hne] at hlost
    cases hlost
  rw [List.replicate_zero, List.append_nil] at hlog
  cases hstep with
  | @reading ls hlines hgot hanswers =>
      left
      rw [hlog, hanswers, (lines_initial hlines hgot.symm).1, List.map_append]
      exact List.prefix_append _ _
  | @drained ls tail k heof hbuffer hcut hanswers =>
      refine Or.inr ⟨heof, k, ?_⟩
      rw [hlog, hanswers, splitLF_unique hcut]

/-- Every call has returned, but for the one that waits. -/
lemma calls_eq (h : (system c).Reachable r) :
    r.calls = r.log.length + if r.waiting = true then 1 else 0 := by
  have hanswer : ∀ (r : LineReader α) a rest, (r.answer a rest).log.length = r.log.length + 1 ∧
      (r.answer a rest).waiting = false := fun r a rest => ⟨by simp [answer], rfl⟩
  have hlook : ∀ r : LineReader α, r.calls = r.log.length + 1 →
      (look c r).calls = (look c r).log.length + if (look c r).waiting = true then 1 else 0 := by
    intro r hr
    rcases look_cases c r with ⟨a, rest, h⟩ | ⟨-, h⟩
    · rw [h, (hanswer r a rest).1, (hanswer r a rest).2]
      exact hr
    · rw [h]
      exact hr
  refine System.ReachableVia.invariant
    (I := fun r => r.calls = r.log.length + if r.waiting = true then 1 else 0) ?_ ?_ h
  · rintro r rfl
    rfl
  · intro r e s ih _ hs
    cases e with
    | data bs =>
        simp only [system, step] at hs
        split_ifs at hs
        cases hs
        exact ih
    | eof | lose =>
        cases hs
        exact ih
    | call =>
        simp only [system, step] at hs
        split_ifs at hs with hwaiting
        cases hs
        refine hlook _ ?_
        rw [if_neg hwaiting] at ih
        exact congrArg (· + 1) ih
    | resume =>
        simp only [system, step] at hs
        split_ifs at hs with hwaiting
        cases hs
        refine hlook _ ?_
        rw [if_pos hwaiting] at ih
        exact ih

/-- At the end of the stream no call stays open. -/
lemma answered_of_eof {e : Event} (h : (system c).Reachable r) (he : e = .call ∨ e = .resume)
    (hs : step c r e = some s) (heof : r.eof = true) : s.log.length = s.calls := by
  have hlook : ∀ r : LineReader α, r.eof = true → (look c r).waiting = false := by
    intro r heof
    rcases look_cases c r with ⟨a, rest, h⟩ | ⟨h, -⟩
    · rw [h]
      rfl
    · rw [h] at heof
      cases heof
  have hwaiting : s.waiting = false := by
    rcases he with rfl | rfl
    · simp only [step] at hs
      split_ifs at hs
      cases hs
      exact hlook _ heof
    · simp only [step] at hs
      split_ifs at hs
      cases hs
      exact hlook r heof
  have hcalls := calls_eq (System.ReachableVia.step h trivial hs)
  rw [hwaiting] at hcalls
  exact hcalls.symm

end LineReader

end GgRelay
