import GgRelay.Lib.Page
import GgRelay.Lib.System

/-!
The `events` table (`store/durable_event.py`, `maintenance/retention.py`).

A `persist` computes a seq and commits later: on PostgreSQL from a sequence that outlives the rows,
on every other dialect as the highest seq in the table plus one.  Retention deletes old rows, and
readers fetch what is above the last seq they were given.

* `EventStore.step` is one statement of a writer, a reader or the retention;
* `CursorGuard` is the condition on runs, `EventStore.Sound` the invariant of these runs;
* `cursor_sound` is the result; `retention_reuses_seq` and `late_commit_is_skipped` are runs in
  which a reader misses an event.
-/

namespace GgRelay.DurableEvents

abbrev WriterId := ℕ
abbrev ReaderId := ℕ
abbrev ProcessId := ℕ

/-- `engine.dialect.name`, as `persist` distinguishes it. -/
inductive Dialect where
  | postgresql
  | other
  deriving DecidableEq, Repr

/-- A `RelayEvent` to be persisted. -/
structure RelayEvent where
  eventId : ℕ
  /-- `occurred_at` -/
  ts : ℕ
  sessionId : Option ℕ
  deriving DecidableEq

/-- A row of the `events` table. -/
structure EventRow extends RelayEvent where
  seq : ℕ
  deriving DecidableEq

/-- `SELECT COALESCE(MAX(seq), 0)`. -/
def maxSeq (seqs : List ℕ) : ℕ := seqs.foldr max 0

/-- `fetch_after`. -/
def fetchAfter (lastSeq limit : ℕ) (table : List EventRow) : List EventRow :=
  page EventRow.seq lastSeq limit table

/-- The engine, and the process each writer runs in. -/
structure StoreConfig where
  dialect : Dialect
  process : WriterId → ProcessId := fun _ => 0

/-- The `events` table with its writers and readers. -/
structure EventStore where
  table : List EventRow
  /-- the last value of `events_seq_seq` -/
  sequence : ℕ
  /-- the row of a `persist` that has its seq and has not committed -/
  pending : WriterId → Option EventRow
  /-- `_sqlite_persist_lock` -/
  locked : ProcessId → Bool
  /-- what each reader has been given -/
  given : ReaderId → List EventRow
  /-- history: the seqs that were inserted -/
  assigned : List ℕ
  /-- history: the seqs that were committed -/
  committed : List ℕ
  /-- history: the seqs that were given to any reader -/
  seen : List ℕ

/-- One statement. -/
inductive Label where
  /-- `persist`, up to its seq -/
  | persist (w : WriterId) (event : RelayEvent)
  /-- the rest of a `persist` -/
  | commit (w : WriterId)
  /-- a `persist` fails or is cancelled -/
  | rollback (w : WriterId)
  /-- the `DELETE` of a batch of rows, all of them older than the cutoff -/
  | prune (cutoff : ℕ) (ids : List ℕ)
  /-- `fetch_after`, with the last seq the reader was given -/
  | fetch (r : ReaderId) (limit : ℕ)
  deriving DecidableEq

namespace EventStore

/-- An empty table. -/
def fresh : EventStore where
  table := []
  sequence := 0
  pending := fun _ => none
  locked := fun _ => false
  given := fun _ => []
  assigned := []
  committed := []
  seen := []

variable (cfg : StoreConfig) (b : EventStore)

/-- The seqs in the table. -/
def seqs : List ℕ := b.table.map EventRow.seq

/-- The last seq a reader was given. -/
def cursor (r : ReaderId) : ℕ := lastKey EventRow.seq 0 (b.given r)

/-- A `persist` has its seq. -/
def reserve (w : WriterId) (row : EventRow) : EventStore :=
  { b with pending := Function.update b.pending w (some row) }

/-- A `persist` is over. -/
def close (w : WriterId) : EventStore :=
  { b with
    pending := Function.update b.pending w none
    locked := Function.update b.locked (cfg.process w) false }

/-- `event_id` is the primary key, `ix_events_seq` a unique index. -/
def Conflicts (row : EventRow) : Prop :=
  row.seq ∈ b.seqs ∨ row.eventId ∈ b.table.map (·.eventId)

instance (row : EventRow) : Decidable (b.Conflicts row) :=
  inferInstanceAs (Decidable (row.seq ∈ b.seqs ∨ row.eventId ∈ b.table.map (·.eventId)))

/-- A row becomes visible. -/
def insert (row : EventRow) : EventStore :=
  { b with table := b.table ++ [row], committed := b.committed ++ [row.seq] }

/-- These rows are given to a reader. -/
def give (r : ReaderId) (rows : List EventRow) : EventStore :=
  { b with
    given := Function.update b.given r (b.given r ++ rows)
    seen := b.seen ++ rows.map EventRow.seq }

/-- These rows are given to somebody. -/
def see (rows : List EventRow) : EventStore := { b with seen := b.seen ++ rows.map EventRow.seq }

/-- The row that this statement makes visible. -/
def commits : Label → Option EventRow
  | .commit w =>
      match b.pending w with
      | some row => if b.Conflicts row then none else some row
      | none => none
  | _ => none

/-- One statement. -/
def step : Label → Option EventStore
  | .persist w event =>
      match b.pending w, cfg.dialect with
      | some _, _ => none
      | none, .postgresql =>
          -- INSERT .. nextval('events_seq_seq') RETURNING seq
          some { b.reserve w ⟨event, b.sequence + 1⟩ with
            sequence := b.sequence + 1, assigned := b.assigned ++ [b.sequence + 1] }
      | none, .other =>
          -- SELECT COALESCE(MAX(seq), 0), under the lock of the process
          if b.locked (cfg.process w) = true then none
          else some { b.reserve w ⟨event, maxSeq b.seqs + 1⟩ with
            locked := Function.update b.locked (cfg.process w) true }
  | .commit w =>
      match b.pending w with
      | none => none
      | some row =>
          if b.Conflicts row then some (b.close cfg w)
          else
            match cfg.dialect with
            | .postgresql => some ((b.close cfg w).insert row)
            | .other => some { (b.close cfg w).insert row with assigned := b.assigned ++ [row.seq] }
  | .rollback w =>
      match b.pending w with
      | none => none
      | some _ => some (b.close cfg w)
  | .prune cutoff ids =>
      if ∀ row ∈ b.table, row.eventId ∈ ids → row.ts < cutoff then
        some { b with table := b.table.filter fun row => row.eventId ∉ ids }
      else none
  | .fetch r limit => some (b.give r (fetchAfter (b.cursor r) limit b.table))

end EventStore

/-- The store. -/
def storeSystem (cfg : StoreConfig) : System EventStore Label where
  init b := b = EventStore.fresh
  step b l := b.step cfg l

namespace EventStore

/-! ### The condition -/

/-- The condition on the steps of a run. -/
def CursorGuard (cfg : StoreConfig) (b : EventStore) : Label → Prop
  | .persist _ _ =>
      -- the row with the highest seq so far has not been pruned
      cfg.dialect = .other → maxSeq b.seqs = maxSeq b.committed
  | .commit w =>
      -- no reader was given a higher seq before the commit
      (cfg.dialect = .postgresql → ∀ row ∈ b.pending w, ∀ q ∈ b.seen, q < row.seq) ∧
      -- no row that another process has inserted in the meantime has been pruned
      (cfg.dialect = .other → ∀ row ∈ b.pending w, ∀ q ∈ b.committed, row.seq ≤ q → q ∈ b.seqs)
  | _ => True

instance (cfg : StoreConfig) (b : EventStore) : ∀ l, Decidable (b.CursorGuard cfg l)
  | .persist _ _ =>
      inferInstanceAs (Decidable (cfg.dialect = .other → maxSeq b.seqs = maxSeq b.committed))
  | .commit w =>
      inferInstanceAs (Decidable
        ((cfg.dialect = .postgresql → ∀ row ∈ b.pending w, ∀ q ∈ b.seen, q < row.seq) ∧
          (cfg.dialect = .other → ∀ row ∈ b.pending w, ∀ q ∈ b.committed, row.seq ≤ q →
            q ∈ b.seqs)))
  | .rollback _ | .prune _ _ | .fetch _ _ => isTrue trivial

/-! ### The seqs -/

variable {cfg : StoreConfig} {b b' : EventStore} {w : WriterId} {row : EventRow}

lemma le_maxSeq {q : ℕ} {l : List ℕ} (h : q ∈ l) : q ≤ maxSeq l := by
  induction l with
  | nil => cases h
  | cons x l ih =>
      rcases List.mem_cons.mp h with rfl | h
      · exact le_max_left _ _
      · exact (ih h).trans (le_max_right _ _)

lemma maxSeq_append_singleton (l : List ℕ) (q : ℕ) : maxSeq (l ++ [q]) = max (maxSeq l) q := by
  induction l with
  | nil => simp [maxSeq]
  | cons x l ih =>
      show max x (maxSeq (l ++ [q])) = max (max x (maxSeq l)) q
      rw [ih, max_assoc]

/-- How the pending rows and the seqs that were inserted relate. -/
structure Assigned (cfg : StoreConfig) (b : EventStore) : Prop where
  increasing : b.assigned.Pairwise (· < ·)
  positive : ∀ w, ∀ row ∈ b.pending w, 0 < row.seq
  /-- the sequence is ahead of everything, and a pending row has a seq of its own -/
  postgres : cfg.dialect = .postgresql →
    (∀ q ∈ b.assigned, q ≤ b.sequence) ∧ (∀ q ∈ b.committed, q ≤ b.sequence) ∧
      (∀ w, ∀ row ∈ b.pending w, row.seq ≤ b.sequence ∧ row.seq ∉ b.committed) ∧
      ∀ w w', ∀ row ∈ b.pending w, ∀ row' ∈ b.pending w', row.seq = row'.seq → w = w'
  /-- what has been inserted since a `persist` has read the highest seq is without gaps -/
  other : cfg.dialect = .other → b.assigned = b.committed ∧
    ∀ w, ∀ row ∈ b.pending w, row.seq ≤ maxSeq b.committed + 1 ∧
      ∀ q, row.seq ≤ q → q ≤ maxSeq b.committed → q ∈ b.committed

/-- What the readers have been given. -/
structure Sound (b : EventStore) : Prop where
  nodup : b.seqs.Nodup
  committed : ∀ q ∈ b.seqs, q ∈ b.committed
  seen : ∀ q ∈ b.seen, q ∈ b.committed
  given : ∀ r, ∀ row ∈ b.given r, row.seq ∈ b.seen
  increasing : ∀ r, (b.given r).Pairwise fun x y => x.seq < y.seq
  complete : ∀ r, ∀ row ∈ b.table, row.seq ≤ b.cursor r → row ∈ b.given r

/-- The seq that a `persist` commits is new, and above all that was given to a reader. -/
structure Fresh (b : EventStore) (row : EventRow) : Prop where
  unused : row.seq ∉ b.committed
  above : ∀ q ∈ b.seen, q < row.seq
  positive : 0 < row.seq

/-! ### What a statement does to the pending rows -/

lemma mem_update_none {q : ℕ} {f : ℕ → Option EventRow} (h : row ∈ Function.update f w none q) :
    q ≠ w ∧ row ∈ f q := by
  by_cases hq : q = w
  · subst hq
    simp at h
  · exact ⟨hq, by rwa [Function.update_of_ne hq] at h⟩

lemma mem_update_some {q : ℕ} {f : ℕ → Option EventRow} {x : EventRow}
    (h : row ∈ Function.update f w (some x) q) : q = w ∧ row = x ∨ q ≠ w ∧ row ∈ f q := by
  by_cases hq : q = w
  · subst hq
    rw [Function.update_self, Option.mem_some_iff] at h
    exact Or.inl ⟨rfl, h.symm⟩
  · exact Or.inr ⟨hq, by rwa [Function.update_of_ne hq] at h⟩

namespace Assigned

lemma nextval (ha : b.Assigned cfg) (hd : cfg.dialect = .postgresql) (event : RelayEvent) :
    Assigned cfg { b.reserve w ⟨event, b.sequence + 1⟩ with
      sequence := b.sequence + 1, assigned := b.assigned ++ [b.sequence + 1] } := by
  obtain ⟨hassigned, hcommitted, hpending, hunique⟩ := ha.postgres hd
  refine ⟨?_, fun q row hrow => ?_, fun _ => ⟨fun q hq => ?_, fun q hq => ?_, fun q row hrow => ?_,
    fun q q' row hrow row' hrow' heq => ?_⟩, fun h => absurd (hd.symm.trans h) (by decide)⟩
  · refine List.pairwise_append.mpr
      ⟨ha.increasing, List.pairwise_singleton _ _, fun q hq q' hq' => ?_⟩
    rw [List.mem_singleton.mp hq']
    exact Nat.lt_succ_of_le (hassigned q hq)
  · rcases mem_update_some hrow with ⟨-, rfl⟩ | ⟨-, hrow⟩
    · exact Nat.succ_pos _
    · exact ha.positive q row hrow
  · rcases List.mem_append.mp hq with hq | hq
    · exact Nat.le_succ_of_le (hassigned q hq)
    · exact (List.mem_singleton.mp hq).le
  · exact Nat.le_succ_of_le (hcommitted q hq)
  · rcases mem_update_some hrow with ⟨-, rfl⟩ | ⟨-, hrow⟩
    · exact ⟨le_rfl, fun h => absurd (hcommitted _ h) (Nat.not_succ_le_self _)⟩
    · obtain ⟨hle, hnot⟩ := hpending q row hrow
      exact ⟨Nat.le_succ_of_le hle, hnot⟩
  · rcases mem_update_some hrow with ⟨rfl, rfl⟩ | ⟨-, hrow⟩
    · rcases mem_update_some hrow' with ⟨rfl, -⟩ | ⟨-, hrow'⟩
      · rfl
      · have hle : b.sequence + 1 ≤ b.sequence := heq.trans_le (hpending q' row' hrow').1
        exact absurd hle (Nat.not_succ_le_self _)
    · rcases mem_update_some hrow' with ⟨-, rfl⟩ | ⟨-, hrow'⟩
      · have hle : b.sequence + 1 ≤ b.sequence := heq.symm.trans_le (hpending q row hrow).1
        exact absurd hle (Nat.not_succ_le_self _)
      · exact hunique q q' row hrow row' hrow' heq

lemma max_plus_one (ha : b.Assigned cfg) (hd : cfg.dialect = .other)
    (hmax : maxSeq b.seqs = maxSeq b.committed) (event : RelayEvent) {locked : ProcessId → Bool} :
    Assigned cfg { b.reserve w ⟨event, maxSeq b.seqs + 1⟩ with locked := locked } := by
  obtain ⟨heq, hpending⟩ := ha.other hd
  refine ⟨ha.increasing, fun q row hrow => ?_, fun h => absurd (hd.symm.trans h) (by decide),
    fun _ => ⟨heq, fun q row hrow => ?_⟩⟩
  · rcases mem_update_some hrow with ⟨-, rfl⟩ | ⟨-, hrow⟩
    · exact Nat.succ_pos _
    · exact ha.positive q row hrow
  · rcases mem_update_some hrow with ⟨-, rfl⟩ | ⟨-, hrow⟩
    · rw [hmax]
      exact ⟨le_rfl, fun q hq hq' => absurd (hq.trans hq') (Nat.not_succ_le_self _)⟩
    · exact hpending q row hrow

lemma close (ha : b.Assigned cfg) : Assigned cfg (b.close cfg w) := by
  refine ⟨ha.increasing, fun q row hrow => ha.positive q row (mem_update_none hrow).2,
    fun hd => ?_, fun hd => ?_⟩
  · obtain ⟨hassigned, hcommitted, hpending, hunique⟩ := ha.postgres hd
    exact ⟨hassigned, hcommitted, fun q row hrow => hpending q row (mem_update_none hrow).2,
      fun q q' row hrow row' hrow' =>
        hunique q q' row (mem_update_none hrow).2 row' (mem_update_none hrow').2⟩
  · obtain ⟨heq, hpending⟩ := ha.other hd
    exact ⟨heq, fun q row hrow => hpending q row (mem_update_none hrow).2⟩

/-- The seq of a row that is about to be inserted. -/
lemma fresh (ha : b.Assigned cfg) (hs : b.Sound) (hrow : row ∈ b.pending w)
    (hok : b.CursorGuard cfg (.commit w)) (hn : row.seq ∉ b.seqs) :
    b.Fresh row ∧ (cfg.dialect = .other → row.seq = maxSeq b.committed + 1) := by
  cases hd : cfg.dialect with
  | postgresql =>
      obtain ⟨-, -, hpending, -⟩ := ha.postgres hd
      exact ⟨⟨(hpending w row hrow).2, hok.1 hd row hrow, ha.positive w row hrow⟩,
        fun h => by cases h⟩
  | other =>
      obtain ⟨-, hpending⟩ := ha.other hd
      obtain ⟨hle, hgap⟩ := hpending w row hrow
      have hlt : maxSeq b.committed < row.seq := by
        by_contra hnot
        have hmem := hgap row.seq le_rfl (Nat.le_of_not_lt hnot)
        exact hn (hok.2 hd row hrow row.seq hmem le_rfl)
      refine ⟨⟨fun h => ?_, fun q hq => ?_, ha.positive w row hrow⟩, fun _ => by omega⟩
      · exact absurd (le_maxSeq h) (Nat.not_le_of_lt hlt)
      · exact (le_maxSeq (hs.seen q hq)).trans_lt hlt

lemma insert_postgres (ha : b.Assigned cfg) (hd : cfg.dialect = .postgresql)
    (hrow : row ∈ b.pending w) : Assigned cfg ((b.close cfg w).insert row) := by
  obtain ⟨hassigned, hcommitted, hpending, hunique⟩ := ha.postgres hd
  refine ⟨ha.increasing, ha.close.positive, fun _ => ⟨hassigned, fun q hq => ?_,
    fun q row' hrow' => ?_, (ha.close.postgres hd).2.2.2⟩,
    fun h => absurd (hd.symm.trans h) (by decide)⟩
  · rcases List.mem_append.mp hq with hq | hq
    · exact hcommitted q hq
    · exact (List.mem_singleton.mp hq) ▸ (hpending w row hrow).1
  · obtain ⟨hne, hrow'⟩ := mem_update_none hrow'
    obtain ⟨hle, hnot⟩ := hpending q row' hrow'
    refine ⟨hle, fun h => ?_⟩
    rcases List.mem_append.mp h with h | h
    · exact hnot h
    · exact hne (hunique q w row' hrow' row hrow (List.mem_singleton.mp h))

lemma insert_other (ha : b.Assigned cfg) (hd : cfg.dialect = .other)
    (hseq : row.seq = maxSeq b.committed + 1) :
    Assigned cfg { (b.close cfg w).insert row with assigned := b.assigned ++ [row.seq] } := by
  obtain ⟨heq, hpending⟩ := ha.other hd
  have hmax : maxSeq (b.committed ++ [row.seq]) = maxSeq b.committed + 1 := by
    rw [maxSeq_append_singleton, hseq]
    exact max_eq_right (Nat.le_succ _)
  refine ⟨?_, ha.close.positive, fun h => absurd (hd.symm.trans h) (by decide),
    fun _ => ⟨by rw [heq]; rfl, fun q row' hrow' => ?_⟩⟩
  · refine List.pairwise_append.mpr
      ⟨ha.increasing, List.pairwise_singleton _ _, fun q hq q' hq' => ?_⟩
    rw [List.mem_singleton.mp hq', hseq]
    exact Nat.lt_succ_of_le (le_maxSeq (heq ▸ hq))
  · obtain ⟨hle, hgap⟩ := hpending q row' (mem_update_none hrow').2
    show row'.seq ≤ maxSeq (b.committed ++ [row.seq]) + 1 ∧ ∀ q, row'.seq ≤ q →
      q ≤ maxSeq (b.committed ++ [row.seq]) → q ∈ b.committed ++ [row.seq]
    rw [hmax]
    refine ⟨Nat.le_succ_of_le hle, fun q hq hq' => ?_⟩
    rcases Nat.le_succ_iff.mp hq' with h | h
    · exact List.mem_append_left _ (hgap q hq h)
    · exact List.mem_append_right _ (List.mem_singleton.mpr (h.trans hseq.symm))

end Assigned

/-! ### What a statement does to the readers -/

lemma given_give_self {r : ReaderId} {rows : List EventRow} :
    (b.give r rows).given r = b.given r ++ rows :=
  Function.update_self ..

lemma given_give_of_ne {r r' : ReaderId} (h : r' ≠ r) {rows : List EventRow} :
    (b.give r rows).given r' = b.given r' :=
  Function.update_of_ne h ..

namespace Sound

/-- A statement that touches neither the table nor the readers. -/
lemma congr (hs : b.Sound) (ht : b'.table = b.table) (hc : b'.committed = b.committed)
    (hg : b'.given = b.given) (hseen : b'.seen = b.seen) : b'.Sound := by
  have hseqs : b'.seqs = b.seqs := by rw [seqs, seqs, ht]
  have hcur : ∀ r, b'.cursor r = b.cursor r := fun r => by rw [cursor, cursor, hg]
  refine ⟨hseqs ▸ hs.nodup, ?_, ?_, ?_, ?_, fun r => ?_⟩
  · rw [hseqs, hc]
    exact hs.committed
  · rw [hseen, hc]
    exact hs.seen
  · rw [hg, hseen]
    exact hs.given
  · rw [hg]
    exact hs.increasing
  · rw [hcur, ht, hg]
    exact hs.complete r

/-- A row with a fresh seq is ahead of every reader. -/
lemma insert (hs : b.Sound) (hf : b.Fresh row) : (b.insert row).Sound := by
  have hseqs : (b.insert row).seqs = b.seqs ++ [row.seq] := by simp [seqs, EventStore.insert]
  refine ⟨?_, fun q hq => ?_, fun q hq => List.mem_append_left _ (hs.seen q hq), hs.given,
    hs.increasing, fun r x hx hle => ?_⟩
  · rw [hseqs]
    refine List.nodup_append.mpr ⟨hs.nodup, List.nodup_singleton _, fun q hq q' hq' heq => ?_⟩
    rw [List.mem_singleton.mp hq'] at heq
    exact hf.unused (hs.committed _ (heq ▸ hq))
  · rw [hseqs] at hq
    rcases List.mem_append.mp hq with hq | hq
    · exact List.mem_append_left _ (hs.committed q hq)
    · exact List.mem_append_right _ hq
  · rcases List.mem_append.mp hx with hx | hx
    · exact hs.complete r x hx hle
    · rw [List.mem_singleton.mp hx] at hle
      have hahead : b.cursor r < row.seq := by
        rcases lastKey_eq_or_mem EventRow.seq 0 (b.given r) with h | ⟨y, hy, h⟩
        · rw [cursor, h]
          exact hf.positive
        · rw [cursor, h]
          exact hf.above _ (hs.given r y hy)
      exact absurd hle (Nat.not_le_of_lt hahead)

/-- The retention takes rows away. -/
lemma prune (hs : b.Sound) (keep : EventRow → Bool) :
    Sound { b with table := b.table.filter keep } := by
  have hsub : ((b.table.filter keep).map EventRow.seq).Sublist b.seqs :=
    List.filter_sublist.map _
  exact ⟨hs.nodup.sublist hsub, fun q hq => hs.committed q (hsub.subset hq), hs.seen, hs.given,
    hs.increasing, fun r x hx => hs.complete r x (List.mem_filter.mp hx).1⟩

/-- **A reader who fetches goes on where he was.** -/
lemma fetch (hs : b.Sound) (r : ReaderId) (limit : ℕ) :
    (b.give r (fetchAfter (b.cursor r) limit b.table)).Sound := by
  refine ⟨hs.nodup, hs.committed, fun q hq => ?_, fun r' x hx => ?_, fun r' => ?_,
    fun r' x hx hle => ?_⟩
  · rcases List.mem_append.mp hq with hq | hq
    · exact hs.seen q hq
    · obtain ⟨x, hx, rfl⟩ := List.mem_map.mp hq
      exact hs.committed _ (List.mem_map_of_mem (mem_of_mem_page hx).1)
  · by_cases hr : r' = r
    · subst hr
      rw [given_give_self] at hx
      rcases List.mem_append.mp hx with hx | hx
      · exact List.mem_append_left _ (hs.given r' x hx)
      · exact List.mem_append_right _ (List.mem_map_of_mem hx)
    · rw [given_give_of_ne hr] at hx
      exact List.mem_append_left _ (hs.given r' x hx)
  · by_cases hr : r' = r
    · subst hr
      rw [given_give_self]
      exact append_page hs.nodup (hs.increasing r')
    · rw [given_give_of_ne hr]
      exact hs.increasing r'
  · by_cases hr : r' = r
    · subst hr
      rw [cursor, given_give_self] at hle
      rw [given_give_self]
      exact mem_append_page hs.nodup (hs.complete r') hx hle
    · rw [cursor, given_give_of_ne hr] at hle
      rw [given_give_of_ne hr]
      exact hs.complete r' x hx hle

end Sound

lemma sound_fresh : EventStore.fresh.Assigned cfg ∧ EventStore.fresh.Sound := by
  refine ⟨⟨List.Pairwise.nil, ?_, ?_, ?_⟩,
    ⟨List.nodup_nil, ?_, ?_, ?_, fun _ => List.Pairwise.nil, ?_⟩⟩
  all_goals simp [EventStore.fresh, seqs]

/-- **Every statement that meets the condition keeps the invariant.** -/
theorem Sound.step {l : Label} (ha : b.Assigned cfg) (hs : b.Sound) (hok : b.CursorGuard cfg l)
    (h : b.step cfg l = some b') : b'.Assigned cfg ∧ b'.Sound := by
  have hclose : ∀ w, (b.close cfg w).Assigned cfg ∧ (b.close cfg w).Sound :=
    fun w => ⟨ha.close, hs.congr rfl rfl rfl rfl⟩
  cases l with
  | persist w event =>
      rw [EventStore.step] at h
      split at h
      · cases h
      · rename_i hd
        cases h
        exact ⟨ha.nextval hd event, hs.congr rfl rfl rfl rfl⟩
      · rename_i hd
        split at h
        · cases h
        · cases h
          exact ⟨ha.max_plus_one hd (hok hd) event, hs.congr rfl rfl rfl rfl⟩
  | commit w =>
      rw [EventStore.step] at h
      split at h
      · cases h
      · rename_i row hrow
        split at h
        · cases h
          exact hclose w
        · rename_i hn
          obtain ⟨hfresh, hother⟩ := ha.fresh hs hrow hok fun hm => hn (Or.inl hm)
          have hsound : ((b.close cfg w).insert row).Sound :=
            (hclose w).2.insert ⟨hfresh.unused, hfresh.above, hfresh.positive⟩
          split at h
          · rename_i hd
            cases h
            exact ⟨ha.insert_postgres hd hrow, hsound⟩
          · rename_i hd
            cases h
            exact ⟨ha.insert_other hd (hother hd), hsound.congr rfl rfl rfl rfl⟩
  | rollback w =>
      rw [EventStore.step] at h
      split at h
      · cases h
      · cases h
        exact hclose w
  | prune cutoff ids =>
      rw [EventStore.step] at h
      split at h
      · cases h
        exact ⟨⟨ha.increasing, ha.positive, ha.postgres, ha.other⟩, hs.prune _⟩
      · cases h
  | fetch r limit =>
      cases h
      exact ⟨⟨ha.increasing, ha.positive, ha.postgres, ha.other⟩, hs.fetch r limit⟩

/-! ### What becomes visible -/

/-- What holds of a row that a statement makes visible. -/
lemma commits_spec {l : Label} (ha : b.Assigned cfg) (hs : b.Sound) (hok : b.CursorGuard cfg l)
    (h : b.step cfg l = some b') (hrow : b.commits l = some row) :
    b.Fresh row ∧ b'.table = b.table ++ [row] ∧ row.eventId ∉ b.table.map (·.eventId) ∧
      b'.seen = b.seen := by
  cases l with
  | commit w =>
      rw [commits] at hrow
      rw [EventStore.step] at h
      split at hrow
      · rename_i x hx
        rw [hx] at h
        split at hrow
        · cases hrow
        · rename_i hn
          cases hrow
          obtain ⟨hseq, hid⟩ := not_or.mp hn
          refine ⟨(ha.fresh hs hx hok hseq).1, ?_⟩
          simp only [hn, if_false] at h
          split at h
          · cases h
            exact ⟨rfl, hid, rfl⟩
          · cases h
            exact ⟨rfl, hid, rfl⟩
      · cases hrow
  | persist w event => cases hrow
  | rollback w => cases hrow
  | prune cutoff ids => cases hrow
  | fetch r limit => cases hrow

/-- Every other statement makes nothing visible. -/
lemma commits_none {l : Label} (h : b.step cfg l = some b') (hl : b.commits l = none) :
    b'.table.Sublist b.table ∧ b.seen ⊆ b'.seen := by
  cases l with
  | persist w event =>
      rw [EventStore.step] at h
      split at h
      · cases h
      · cases h
        exact ⟨List.Sublist.refl _, List.Subset.refl _⟩
      · split at h
        · cases h
        · cases h
          exact ⟨List.Sublist.refl _, List.Subset.refl _⟩
  | commit w =>
      rw [commits] at hl
      rw [EventStore.step] at h
      split at h
      · cases h
      · rename_i x hx
        simp only [hx] at hl
        split at hl
        · rename_i hc
          simp only [hc, if_true] at h
          cases h
          exact ⟨List.Sublist.refl _, List.Subset.refl _⟩
        · cases hl
  | rollback w =>
      rw [EventStore.step] at h
      split at h
      · cases h
      · cases h
        exact ⟨List.Sublist.refl _, List.Subset.refl _⟩
  | prune cutoff ids =>
      rw [EventStore.step] at h
      split at h
      · cases h
        exact ⟨List.filter_sublist, List.Subset.refl _⟩
      · cases h
  | fetch r limit =>
      cases h
      exact ⟨List.Sublist.refl _, List.subset_append_left _ _⟩

/-- Somebody else may be given rows of the table. -/
lemma Sound.see {rows : List EventRow} (hs : b.Sound) (hrows : rows ⊆ b.table) :
    (b.see rows).Sound := by
  refine ⟨hs.nodup, hs.committed, fun q hq => ?_,
    fun r x hx => List.mem_append_left _ (hs.given r x hx), hs.increasing, hs.complete⟩
  rcases List.mem_append.mp hq with hq | hq
  · exact hs.seen q hq
  · obtain ⟨x, hx, rfl⟩ := List.mem_map.mp hq
    exact hs.committed _ (List.mem_map_of_mem (hrows hx))

end EventStore

/-! ### The result -/

variable {cfg : StoreConfig} {b : EventStore}

/-- **A cursor is sound**: as long as no row is committed below what a reader was given and the row
with the highest seq is there when the next seq is computed, seqs are assigned in increasing order,
and a reader is given every row that is still there when he comes past it, once and in order. -/
theorem cursor_sound (h : (storeSystem cfg).ReachableVia (fun b l => b.CursorGuard cfg l) b) :
    b.assigned.Pairwise (· < ·) ∧
      ∀ r, ((b.given r).Pairwise fun x y => x.seq < y.seq) ∧
        (∀ row ∈ b.table, row.seq ≤ b.cursor r → row ∈ b.given r) ∧
        ∀ limit, ∀ row ∈ b.table,
          row ∈ b.given r ++ fetchAfter (b.cursor r) limit b.table ∨
            (fetchAfter (b.cursor r) limit b.table).length = limit ∧
              ∀ y ∈ fetchAfter (b.cursor r) limit b.table, y.seq ≤ row.seq := by
  have hinv : b.Assigned cfg ∧ b.Sound := by
    refine h.invariant (I := fun b => b.Assigned cfg ∧ b.Sound) (fun b hb => ?_)
      fun b l b' hinv hok hstep => hinv.2.step hinv.1 hok hstep
    cases hb
    exact EventStore.sound_fresh
  obtain ⟨ha, hs⟩ := hinv
  refine ⟨ha.increasing, fun r => ⟨hs.increasing r, hs.complete r, fun limit row hrow => ?_⟩⟩
  rcases le_or_gt row.seq (b.cursor r) with hle | hlt
  · exact Or.inl (List.mem_append_left _ (hs.complete r row hrow hle))
  · exact (mem_page_or_full hrow hlt).imp (List.mem_append_right _) id

/-! ### A reader misses an event -/

/-- An old event is read and pruned, and then the next one is persisted. -/
def retentionRun : List Label :=
  [.persist 0 ⟨0, 0, none⟩, .commit 0, .fetch 0 1000, .prune 30 [0],
    .persist 0 ⟨1, 31, none⟩, .commit 0, .fetch 0 1000]

/-- Two events are persisted, and the second is committed and read before the first. -/
def lateCommitRun : List Label :=
  [.persist 0 ⟨0, 0, none⟩, .persist 1 ⟨1, 0, none⟩, .commit 1, .fetch 0 1000, .commit 0,
    .fetch 0 1000]

/-- Two events are persisted, read and pruned in turn. -/
def quietRun : List Label :=
  [.persist 0 ⟨0, 0, none⟩, .commit 0, .fetch 0 1000, .persist 0 ⟨1, 31, none⟩, .commit 0,
    .prune 30 [0], .fetch 0 1000]

theorem cursor_sound_quietRun :
    ∃ b, (storeSystem ⟨.other, fun _ => 0⟩).checkedRun
        (fun b l => b.CursorGuard ⟨.other, fun _ => 0⟩ l) EventStore.fresh quietRun = some b ∧
      (b.given 0).map EventRow.seq = [1, 2] ∧ b.assigned.Pairwise (· < ·) := by
  have hrun : ((storeSystem ⟨.other, fun _ => 0⟩).checkedRun
      (fun b l => b.CursorGuard ⟨.other, fun _ => 0⟩ l) EventStore.fresh quietRun).any
        (fun b => (b.given 0).map EventRow.seq = [1, 2]) = true := by decide
  obtain ⟨b, hs, he⟩ := (Option.any_eq_true _ _).mp hrun
  exact ⟨b, hs, of_decide_eq_true he, (cursor_sound (.of_checkedRun (.init rfl) hs)).1⟩

/-- The retention has emptied the table, and the seq of the first event is assigned again: the
reader is not given the second one. -/
theorem retention_reuses_seq :
    ∃ b, (storeSystem ⟨.other, fun _ => 0⟩).run EventStore.fresh retentionRun = some b ∧
      b.assigned = [1, 1] ∧ ∃ row ∈ b.table, row.eventId = 1 ∧ row ∉ b.given 0 := by
  refine ⟨_, rfl, ?_⟩
  decide

/-- The same on PostgreSQL, with a commit that comes late. -/
theorem late_commit_is_skipped :
    ∃ b, (storeSystem ⟨.postgresql, fun _ => 0⟩).run EventStore.fresh lateCommitRun = some b ∧
      ∃ row ∈ b.table, row.eventId = 0 ∧ row.seq ≤ b.cursor 0 ∧ row ∉ b.given 0 := by
  refine ⟨_, rfl, ?_⟩
  decide

end GgRelay.DurableEvents
