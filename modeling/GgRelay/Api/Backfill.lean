import GgRelay.Lib.JsonText
import GgRelay.Lib.System
import GgRelay.Session.Frames.Payload

/-!
The back-fill of frames when a client reconnects with the cursor of a frame (`api/sse.py`,
`_stream`, over `list_frames` of `store/repository.py`).

* `FrameTable` is the table with its unique constraint, `listFrames` the query;
* `connection` is the generator from its back-fill on: the bus changes the queue of the subscription
  at any time, the client takes one event after the other;
* `backfill_complete_iff` says when nothing is missed.
-/

namespace GgRelay.Backfill

open Frames

/-- A row of the `frames` table. -/
structure StoredFrame where
  sessionId : String
  seq : ℤ
  type : String
  payload : Obj

/-- The `frames` table. -/
structure FrameTable where
  rows : List StoredFrame
  /-- `uq_frames_session_seq` -/
  unique : (rows.map fun row => (row.sessionId, row.seq)).Nodup

/-- The rows of the session, in the order of their seq. -/
def FrameTable.ofSession (t : FrameTable) (sessionId : String) : List StoredFrame :=
  (t.rows.filter fun row => row.sessionId = sessionId).insertionSort fun a b => a.seq ≤ b.seq

/-- `list_frames`. -/
def FrameTable.listFrames (t : FrameTable) (sessionId : String) (limit offset : ℕ) :
    List StoredFrame :=
  ((t.ofSession sessionId).drop offset).take limit

/-- `payload.setdefault(k, v)`. -/
def setDefault (k : String) (v : Json) (d : Obj) : Obj :=
  if (d.lookup k).isSome then d else d ++ [(k, v)]

/-- `payload[k] = v`. -/
def setItem (k : String) (v : Json) (d : Obj) : Obj :=
  if (d.lookup k).isSome then d.map fun kv => if kv.1 = k then (k, v) else kv else d ++ [(k, v)]

/-- The frame that is rebuilt from a row. -/
def StoredFrame.frame (row : StoredFrame) (sessionId : String) : Obj :=
  setItem "session_id" (.str sessionId)
    (setDefault "seq" (.scalar (.int row.seq)) (setDefault "type" (.str row.type) row.payload))

/-- `ServerSentEvent`. -/
structure ServerSentEvent where
  id : Option String
  event : String
  data : List Char

/-- `_event_to_sse` of a frame. -/
def eventToSse (B : Builtins) (event : Obj) : ServerSentEvent where
  id :=
    match get event "seq" with
    | .scalar (.int n) => some s!"seq:{n}"
    | .scalar (.bool b) => some (if b then "seq:True" else "seq:False")
    | _ => none
  event := "frame." ++
    match getD event "type" (.str "frame") with
    | .str s => s
    | v => B.str v
  data := Json.dumps (.mapping event)

/-- What the client receives. -/
inductive Sent (Live : Type) where
  | frame (row : StoredFrame)
  | live (x : Live)

/-- A connection whose generator has listed the frames. -/
structure Connection (Live : Type) where
  /-- the rows that the loop has still to look at, and does not skip -/
  rest : List StoredFrame
  /-- the queue of the subscription -/
  queue : List Live := []
  sent : List (Sent Live) := []

/-- What happens next. -/
inductive Label (Live : Type) where
  /-- the bus puts events into the queue, or takes some out -/
  | bus (queue : List Live)
  /-- the generator goes on to its next `yield` -/
  | send

/-- One step. -/
def Connection.step {Live : Type} (c : Connection Live) : Label Live → Option (Connection Live)
  | .bus queue => some { c with queue }
  | .send =>
      match c.rest, c.queue with
      | row :: rest, _ => some { c with rest, sent := c.sent ++ [.frame row] }
      | [], x :: queue => some { c with queue, sent := c.sent ++ [.live x] }
      | [], [] => none

/-- The limit of the back-fill. -/
def backfillLimit : ℕ := 1000

/-- The connections of a client that has seen the frames up to `lastSeq`. -/
def connection (Live : Type) (t : FrameTable) (sessionId : String) (lastSeq : ℤ) :
    System (Connection Live) (Label Live) where
  init c := ∃ queue, c =
    { rest := (t.listFrames sessionId backfillLimit 0).filter fun row => lastSeq < row.seq, queue }
  step := Connection.step

/-! ### The table -/

section Table

variable {t : FrameTable} {sessionId : String} {row : StoredFrame}

lemma mem_ofSession : row ∈ t.ofSession sessionId ↔ row ∈ t.rows ∧ row.sessionId = sessionId := by
  rw [FrameTable.ofSession, List.mem_insertionSort, List.mem_filter, decide_eq_true_eq]

/-- The seqs of a session increase. -/
lemma pairwise_ofSession :
    (t.ofSession sessionId).Pairwise fun a b => a.seq < b.seq := by
  have hle : (t.ofSession sessionId).Pairwise fun a b => a.seq ≤ b.seq := by
    have : Std.Total fun a b : StoredFrame => a.seq ≤ b.seq := ⟨fun a b => le_total _ _⟩
    have : IsTrans StoredFrame fun a b => a.seq ≤ b.seq := ⟨fun _ _ _ => le_trans⟩
    exact List.pairwise_insertionSort _ _
  have hne : (t.ofSession sessionId).Pairwise fun a b => a.seq ≠ b.seq := by
    have hunique : (t.rows.filter fun row => row.sessionId = sessionId).Pairwise
        fun a b => a.seq ≠ b.seq := by
      rw [List.pairwise_filter]
      refine (List.pairwise_map.mp t.unique).imp fun hab ha hb hseq => hab ?_
      rw [of_decide_eq_true ha, of_decide_eq_true hb, hseq]
    exact hunique.perm (List.perm_insertionSort _ _).symm fun h => h.symm
  exact (hle.and hne).imp fun h => lt_of_le_of_ne h.1 h.2

end Table

/-! ### The connection -/

section Connection

variable {Live : Type} {t : FrameTable} {sessionId : String} {lastSeq : ℤ} {c : Connection Live}

/-- The rows that the loop does not skip. -/
def listed (t : FrameTable) (sessionId : String) (lastSeq : ℤ) : List StoredFrame :=
  (t.listFrames sessionId backfillLimit 0).filter fun row => lastSeq < row.seq

/-- **What has been sent**: the listed rows as far as the loop has come, and live events only after
the last of them. -/
lemma sent_eq (h : (connection Live t sessionId lastSeq).Reachable c) :
    ∃ fs ls, c.sent = fs.map .frame ++ ls.map .live ∧ fs ++ c.rest = listed t sessionId lastSeq ∧
      (c.rest ≠ [] → ls = []) := by
  refine h.invariant (I := fun c => ∃ fs ls, c.sent = fs.map .frame ++ ls.map .live ∧
    fs ++ c.rest = listed t sessionId lastSeq ∧ (c.rest ≠ [] → ls = [])) ?_ ?_
  · rintro _ ⟨queue, rfl⟩
    exact ⟨[], [], rfl, rfl, fun _ => rfl⟩
  · rintro ⟨rest, queue, sent⟩ l c' ⟨fs, ls, hsent, hlisted, hlive⟩ - hstep
    cases l with
    | bus queue' =>
        cases hstep
        exact ⟨fs, ls, hsent, hlisted, hlive⟩
    | send =>
        cases rest with
        | cons row rest =>
            cases hstep
            obtain rfl := hlive (List.cons_ne_nil _ _)
            refine ⟨fs ++ [row], [], ?_, ?_, fun _ => rfl⟩
            · simp only at hsent
              simp [hsent]
            · rw [← hlisted, List.append_assoc, List.singleton_append]
        | nil =>
            cases queue with
            | nil => cases hstep
            | cons x queue =>
                cases hstep
                refine ⟨fs, ls ++ [x], ?_, hlisted, fun h => absurd rfl h⟩
                simp only at hsent
                simp [hsent, List.append_assoc]

/-- The loop comes to its end. -/
lemma exists_ended : ∃ c : Connection Live,
    (connection Live t sessionId lastSeq).Reachable c ∧ c.rest = [] := by
  have hrun : ∀ (rest : List StoredFrame) (c : Connection Live), c.rest = rest →
      (connection Live t sessionId lastSeq).Reachable c →
      ∃ c' : Connection Live, (connection Live t sessionId lastSeq).Reachable c' ∧ c'.rest = [] := by
    intro rest
    induction rest with
    | nil => exact fun c hc h => ⟨c, h, hc⟩
    | cons row rest ih =>
        rintro ⟨rest', queue, sent⟩ rfl h
        exact ih ⟨rest, queue, sent ++ [.frame row]⟩ rfl (.step (l := .send) h trivial rfl)
  exact hrun _ _ rfl (.init ⟨[], rfl⟩)

/-- **The back-fill is complete**: once it is over, the client has received every frame of the
session with a seq above its cursor, once and in the order of the seqs, and then live events. -/
def Complete (Live : Type) (t : FrameTable) (sessionId : String) (lastSeq : ℤ) : Prop :=
  ∀ c, (connection Live t sessionId lastSeq).Reachable c →
    ∃ (fs : List StoredFrame) (ls : List Live),
      c.sent = fs.map .frame ++ ls.map .live ∧ fs.Pairwise (fun a b => a.seq < b.seq) ∧
      (∀ row ∈ fs, row ∈ t.rows ∧ row.sessionId = sessionId ∧ lastSeq < row.seq) ∧
      (c.rest = [] ∨ ls ≠ [] →
        ∀ row ∈ t.rows, row.sessionId = sessionId → lastSeq < row.seq → row ∈ fs)

/-- The row of the highest seq is not listed if there are too many. -/
lemma listed_eq : listed t sessionId lastSeq
    = ((t.ofSession sessionId).take backfillLimit).filter fun row => lastSeq < row.seq := by
  rw [listed, FrameTable.listFrames, List.drop_zero]

lemma pairwise_listed : (listed t sessionId lastSeq).Pairwise fun a b => a.seq < b.seq :=
  listed_eq ▸ (pairwise_ofSession.sublist (List.take_sublist _ _)).sublist List.filter_sublist

lemma mem_of_mem_listed {row : StoredFrame} (h : row ∈ listed t sessionId lastSeq) :
    row ∈ t.rows ∧ row.sessionId = sessionId ∧ lastSeq < row.seq := by
  rw [listed_eq, List.mem_filter, decide_eq_true_eq] at h
  obtain ⟨hrow, hsession⟩ := mem_ofSession.mp (List.mem_of_mem_take h.1)
  exact ⟨hrow, hsession, h.2⟩

/-- All the rows above the cursor are listed, unless there are too many rows. -/
lemma all_listed_iff :
    (∀ row ∈ t.rows, row.sessionId = sessionId → lastSeq < row.seq →
      row ∈ listed t sessionId lastSeq) ↔
    (t.ofSession sessionId).length ≤ backfillLimit ∨
      ∀ row ∈ t.ofSession sessionId, row.seq ≤ lastSeq := by
  have hsplit := List.take_append_drop backfillLimit (t.ofSession sessionId)
  rw [listed_eq]
  constructor
  · intro hall
    by_contra hnot
    rw [not_or, not_le] at hnot
    obtain ⟨hlength, hnot⟩ := hnot
    simp only [not_forall, not_le] at hnot
    obtain ⟨row, hrow, hseq⟩ := hnot
    have hpairwise : (t.ofSession sessionId).Pairwise fun a b => a.seq < b.seq := pairwise_ofSession
    rw [← hsplit] at hpairwise hrow
    obtain ⟨-, -, hlt⟩ := List.pairwise_append.mp hpairwise
    -- some row above the cursor is beyond the limit
    obtain ⟨z, hz, hzseq⟩ : ∃ z ∈ (t.ofSession sessionId).drop backfillLimit, lastSeq < z.seq := by
      rcases List.mem_append.mp hrow with htake | hdrop
      · obtain ⟨z, hz⟩ := List.exists_mem_of_ne_nil _
          (List.ne_nil_of_length_pos (l := (t.ofSession sessionId).drop backfillLimit)
            (by rw [List.length_drop]; omega))
        exact ⟨z, hz, hseq.trans (hlt row htake z hz)⟩
      · exact ⟨row, hdrop, hseq⟩
    obtain ⟨hzrows, hzsession⟩ := mem_ofSession.mp (List.mem_of_mem_drop hz)
    have hzlisted := hall z hzrows hzsession hzseq
    exact lt_irrefl _ (hlt z (List.mem_filter.mp hzlisted).1 z hz)
  · rintro (hlength | hseen) row hrow hsession hseq
    · rw [List.take_of_length_le hlength, List.mem_filter]
      exact ⟨mem_ofSession.mpr ⟨hrow, hsession⟩, decide_eq_true hseq⟩
    · exact absurd hseq (not_lt.mpr (hseen row (mem_ofSession.mpr ⟨hrow, hsession⟩)))

/-- The frames that have been received. -/
def Sent.frame? : Sent Live → Option StoredFrame
  | frame row => some row
  | live _ => none

lemma filterMap_frame? (fs : List StoredFrame) (ls : List Live) :
    (fs.map Sent.frame ++ ls.map Sent.live).filterMap Sent.frame? = fs := by
  have hframes : (fs.map (Sent.frame : StoredFrame → Sent Live)).filterMap Sent.frame? = fs := by
    rw [List.filterMap_map]
    exact List.filterMap_some
  have hlive : (ls.map Sent.live).filterMap Sent.frame? = [] := by
    rw [List.filterMap_map]
    exact List.filterMap_eq_nil_iff.mpr fun _ _ => rfl
  rw [List.filterMap_append, hframes, hlive, List.append_nil]

lemma complete_iff_all_listed : Complete Live t sessionId lastSeq ↔
    ∀ row ∈ t.rows, row.sessionId = sessionId → lastSeq < row.seq →
      row ∈ listed t sessionId lastSeq := by
  constructor
  · intro h row hrow hsession hseq
    obtain ⟨c, hc, hrest⟩ : ∃ c : Connection Live,
        (connection Live t sessionId lastSeq).Reachable c ∧ c.rest = [] := exists_ended
    obtain ⟨fs, ls, hsent, -, -, hall⟩ := h c hc
    obtain ⟨fs', ls', hsent', hlisted, -⟩ := sent_eq hc
    have heq : fs = fs' := by rw [← filterMap_frame? fs ls, ← hsent, hsent', filterMap_frame?]
    rw [hrest, List.append_nil] at hlisted
    exact hlisted ▸ heq ▸ hall (Or.inl hrest) row hrow hsession hseq
  · rintro h c hc
    obtain ⟨fs, ls, hsent, hlisted, hlive⟩ := sent_eq hc
    have hlead : fs <+: listed t sessionId lastSeq := ⟨c.rest, hlisted⟩
    refine ⟨fs, ls, hsent, pairwise_listed.sublist hlead.sublist,
      fun row hrow => mem_of_mem_listed (hlead.subset hrow), fun hend row hrow hsession hseq => ?_⟩
    have hrest : c.rest = [] := hend.elim id fun hls => not_not.mp fun hrest => hls (hlive hrest)
    rw [hrest, List.append_nil] at hlisted
    exact hlisted ▸ h row hrow hsession hseq

/-- **When the back-fill is complete**: the session has no more frames than the limit of the query,
or the client has seen them all. -/
theorem backfill_complete_iff (Live : Type) (t : FrameTable) (sessionId : String) (lastSeq : ℤ) :
    Complete Live t sessionId lastSeq ↔
      (t.ofSession sessionId).length ≤ backfillLimit ∨
        ∀ row ∈ t.ofSession sessionId, row.seq ≤ lastSeq := by
  rw [complete_iff_all_listed, all_listed_iff]

end Connection

/-- A session with so many frames. -/
def longSession (n : ℕ) : FrameTable where
  rows := (List.range n).map fun k : ℕ => ⟨"s", k, "msg.chunk", []⟩
  unique := by
    rw [List.map_map]
    exact List.Nodup.map (fun a b h => by simpa using h) List.nodup_range

lemma mem_longSession {n k : ℕ} (hk : k < n) :
    (⟨"s", k, "msg.chunk", []⟩ : StoredFrame) ∈ (longSession n).ofSession "s" :=
  mem_ofSession.mpr ⟨List.mem_map.mpr ⟨k, List.mem_range.mpr hk, rfl⟩, rfl⟩

lemma length_longSession (n : ℕ) : ((longSession n).ofSession "s").length = n := by
  simp [FrameTable.ofSession, longSession, List.filter_map, Function.comp_def]

/-- Of 1001 frames the last is missed by a client that has seen none. -/
theorem longSession_incomplete : ¬Complete Unit (longSession 1001) "s" (-1) := by
  rw [complete_iff_all_listed, all_listed_iff, length_longSession]
  rintro (hle | hseen)
  · exact absurd hle (by rw [backfillLimit]; omega)
  · exact absurd (hseen _ (mem_longSession (k := 0) (by omega))) (by simp)

end GgRelay.Backfill
