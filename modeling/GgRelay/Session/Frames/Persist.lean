import GgRelay.Session.Frames.Payload

/-!
`SessionManager._persist_frame`: what the host does with every frame of a session.

* `Sink` is what the pipeline writes for the session: the rows of the frames table, the trace
  rows, the publications and the metrics;
* `appendFrame` is `append_frame` with the unique constraint of the table, `persistFrame` the
  pipeline, `persistFrames` the pipeline over a list;
* `rowOf` and `publicationOf` say what one frame contributes: `frames_persistFrame` and
  `published_persistFrame` are the pipeline in those terms, `handed` the frames a list of frames
  gets to.
-/

namespace GgRelay.Frames

/-- A row of the frames table, for the session; `ts` is `none` where the clock was read. -/
structure FrameRow where
  seq : ℤ
  ts : Option String
  type : String
  payload : Obj
  /-- history: the frame it was made from -/
  origin : Obj

/-- A row of the `trace_invocations` table, for the session. -/
structure TraceRow where
  seq : ℤ
  eventType : String
  toolName : Option String
  toolUseId : Option String
  parentToolUseId : Option String
  inputHash : Option String
  inputRedacted : Obj
  createdAt : Option String

/-- What is passed to `bus.publish`. -/
inductive Message where
  | typed (event : RelayEvent)
  | legacy (topic : String) (payload : Obj)

/-- A call of `bus.publish`. -/
structure Publication where
  message : Message
  /-- history: the frame it was made from -/
  origin : Obj

/-- `_SessionMetrics`. -/
structure SessionMetrics where
  framesPersisted : ℕ := 0
  framesDropped : ℕ := 0
  inputTokens : ℤ := 0
  outputTokens : ℤ := 0
  turnCount : ℤ := 0
  costUsd : String := "0.0"

/-- What the pipeline writes for a session; its metrics are there from `submit` to the end of
`_run`. -/
structure Sink where
  frames : List FrameRow := []
  traces : List TraceRow := []
  published : List Publication := []
  metrics : SessionMetrics := {}

/-- The first value that is true, `0` without one. -/
def firstTrue (B : Builtins) : List Json → Json
  | [] => .scalar (.int 0)
  | v :: vs => B.or v (firstTrue B vs)

namespace SessionMetrics

variable (B : Builtins)

/-- `isinstance(cost, int | float)`, with what `float(cost)` raises. -/
def cost? : Json → Option (Except PyError String)
  | .scalar (.int n) => some (B.float (.scalar (.int n)))
  | .scalar (.bool b) => some (B.float (.scalar (.bool b)))
  | .scalar (.other r) => if B.isFloat r then some (.ok r) else none
  | _ => none

/-- What is caught of an exception: a `TypeError` or a `ValueError` only. -/
def uncaught : PyError → Option PyError
  | .overflowError => some .overflowError
  | .typeError | .valueError => none

/-- The three assignments in one `try`, with what is raised out of it: the first that raises ends
them. -/
def assignCounts (inToks outToks turnCount : Json) (m : SessionMetrics) :
    SessionMetrics × Option PyError :=
  match B.int inToks with
  | .error e => (m, uncaught e)
  | .ok i =>
    match B.int outToks with
    | .error e => ({ m with inputTokens := i }, uncaught e)
    | .ok o =>
      match B.int turnCount with
      | .error e => ({ m with inputTokens := i, outputTokens := o }, uncaught e)
      | .ok t => ({ m with inputTokens := i, outputTokens := o, turnCount := t }, none)

/-- `tokens`, if it is a dict. -/
def tokensOf (frame : Obj) : Obj :=
  (asMapping (B.or (get frame "tokens") (.mapping []))).getD []

/-- `in_toks`. -/
def inToks (frame : Obj) : Json :=
  firstTrue B [get frame "input_tokens", get (tokensOf B frame) "input_tokens",
    get (tokensOf B frame) "in"]

/-- `out_toks`. -/
def outToks (frame : Obj) : Json :=
  firstTrue B [get frame "output_tokens", get (tokensOf B frame) "output_tokens",
    get (tokensOf B frame) "out"]

/-- `turn_count`. -/
def turnCountOf (frame : Obj) : Json :=
  firstTrue B [get frame "turn_count", get (tokensOf B frame) "turn_count"]

/-- `_record_session_end`, with what it raises. -/
def recordSessionEnd (frame : Obj) (m : SessionMetrics) : SessionMetrics × Option PyError :=
  match m.assignCounts B (inToks B frame) (outToks B frame) (turnCountOf B frame) with
  | (m, some e) => (m, some e)
  | (m, none) =>
      match cost? B (get frame "cost_usd") with
      | some (.ok c) => ({ m with costUsd := c }, none)
      | some (.error e) => (m, some e)
      | none => (m, none)

end SessionMetrics

namespace Sink

/-- The insert in `append_frame`: the table has at most one row for a session and a seq. -/
def appendFrame (row : FrameRow) (s : Sink) : Option Sink :=
  if row.seq ∈ s.frames.map FrameRow.seq then none
  else some { s with frames := s.frames ++ [row] }

/-- A metrics update. -/
def count (f : SessionMetrics → SessionMetrics) (s : Sink) : Sink :=
  { s with metrics := f s.metrics }

/-- `metrics.frames_persisted += 1`. -/
def countPersisted : Sink → Sink :=
  count fun m => { m with framesPersisted := m.framesPersisted + 1 }

/-- `metrics.frames_dropped += 1`. -/
def countDropped : Sink → Sink :=
  count fun m => { m with framesDropped := m.framesDropped + 1 }

/-- `bus.publish`. -/
def publish (p : Publication) (s : Sink) : Sink := { s with published := s.published ++ [p] }

@[simp] theorem frames_count (f) (s : Sink) : (s.count f).frames = s.frames := rfl
@[simp] theorem published_count (f) (s : Sink) : (s.count f).published = s.published := rfl
@[simp] theorem frames_countPersisted (s : Sink) : s.countPersisted.frames = s.frames := rfl
@[simp] theorem published_countPersisted (s : Sink) : s.countPersisted.published = s.published :=
  rfl
@[simp] theorem frames_countDropped (s : Sink) : s.countDropped.frames = s.frames := rfl
@[simp] theorem published_countDropped (s : Sink) : s.countDropped.published = s.published := rfl
@[simp] theorem frames_publish (p) (s : Sink) : (s.publish p).frames = s.frames := rfl
@[simp] theorem published_publish (p) (s : Sink) :
    (s.publish p).published = s.published ++ [p] := rfl

end Sink

variable (E : RedactionEngine) (B : Builtins) (sid : String)

/-- The row that `_persist_frame` inserts, `none` where `int` raises on the seq. -/
def rowOf (frame : Obj) : Option FrameRow :=
  let redacted := E.redactFrame frame
  match B.int (getD redacted "seq" (.scalar (.int 0))) with
  | .error _ => none
  | .ok seq => some {
      seq := seq
      ts := (asStr (get redacted "ts")).bind B.fromisoformat
      type := B.str (getD redacted "type" (.str "unknown"))
      payload := redacted
      origin := frame }

/-- The row that `_record_trace_frame` inserts for a hook frame. -/
def traceOf (frame : Obj) (ts : Option String) : Option TraceRow :=
  match asStr (get frame "type") with
  | none => none
  | some frameType =>
    if "hook.".toList <+: frameType.toList then
      match B.int (getD frame "seq" (.scalar (.int 0))) with
      | .error _ => none
      | .ok seq => some {
          seq := seq
          eventType := B.str (B.or (get frame "event_type") (.str frameType))
          toolName := asStr (get frame "tool_name")
          toolUseId := asStr (get frame "tool_use_id")
          parentToolUseId := asStr (get frame "parent_tool_use_id")
          inputHash := asStr (get frame "input_hash")
          inputRedacted := (asMapping (get frame "input_redacted")).getD []
          createdAt := ts }
    else none

/-- `{"session_id": sid, **frame}`. -/
def withSession (frame : Obj) : Obj :=
  ("session_id", getD frame "session_id" (.str sid)) ::
    frame.filter fun kv => kv.1 ≠ "session_id"

/-- What is published for a frame. -/
def messageOf (frame : Obj) : Except PyError Message :=
  let redacted := E.redactFrame frame
  (frameToEvent B sid redacted).map fun
    | some event => .typed event
    | none => .legacy "frame" (withSession sid redacted)

/-- The insert, with its metrics: what it raises is logged only. -/
def storeFrame (frame : Obj) (s : Sink) : Sink :=
  match (rowOf E B frame).bind fun row => s.appendFrame row with
  | some s => s.countPersisted
  | none => s.countDropped

/-- The metrics of a `session.end`, with what is raised. -/
def recordEnd (redacted : Obj) (m : SessionMetrics) : SessionMetrics × Option PyError :=
  if hasType "session.end" redacted then m.recordSessionEnd B redacted else (m, none)

/-- `_record_trace_frame`: what it raises is logged only. -/
def recordTrace (redacted : Obj) (s : Sink) : Sink :=
  let ts := (asStr (get redacted "ts")).bind B.fromisoformat
  { s with traces := s.traces ++ (traceOf B redacted ts).toList }

/-- `_persist_frame`, with what it raises. -/
def persistFrame (frame : Obj) (s : Sink) : Sink × Option PyError :=
  let redacted := E.redactFrame frame
  let s := storeFrame E B frame s
  let recorded := recordEnd B redacted s.metrics
  let s := { s with metrics := recorded.1 }
  match recorded.2 with
  | some e => (s, some e)
  | none =>
      let s := recordTrace B redacted s
      match messageOf E B sid frame with
      | .ok message => (s.publish { message := message, origin := frame }, none)
      | .error e => (s, some e)

/-- `_persist_frames`: what is raised ends the loop. -/
def persistFrames : List Obj → Sink → Sink × Option PyError
  | [], s => (s, none)
  | frame :: frames, s =>
      match persistFrame E B sid frame s with
      | (s, none) => persistFrames frames s
      | (s, some e) => (s, some e)

/-! ### What one frame contributes -/

/-- What the metrics of a frame raise; it does not depend on the metrics so far. -/
def recordRaises (frame : Obj) : Option PyError := (recordEnd B (E.redactFrame frame) {}).2

/-- The publication for a frame, `none` where the metrics or the factory raise. -/
def publicationOf (frame : Obj) : Option Publication :=
  match recordRaises E B frame with
  | some _ => none
  | none =>
      (messageOf E B sid frame).toOption.map fun message => { message := message, origin := frame }

/-- The pipeline raises on the frame. -/
def raises (frame : Obj) : Bool := (publicationOf E B sid frame).isNone

/-- The rows after the insert of a frame. -/
def addRow (rows : List FrameRow) (frame : Obj) : List FrameRow :=
  match rowOf E B frame with
  | none => rows
  | some row => if row.seq ∈ rows.map FrameRow.seq then rows else rows ++ [row]

variable {E B sid} {frame : Obj} {frames : List Obj} {s : Sink}

lemma origin_rowOf {row : FrameRow} (h : rowOf E B frame = some row) : row.origin = frame := by
  simp only [rowOf] at h
  split at h
  · simp at h
  · cases h
    rfl

lemma origin_publicationOf {p : Publication} (h : publicationOf E B sid frame = some p) :
    p.origin = frame := by
  rw [publicationOf] at h
  split at h
  · cases h
  · obtain ⟨message, -, rfl⟩ := Option.map_eq_some_iff.mp h
    rfl

lemma assignCounts_raised (i o t : Json) (m m' : SessionMetrics) :
    (m.assignCounts B i o t).2 = (m'.assignCounts B i o t).2 := by
  unfold SessionMetrics.assignCounts
  cases B.int i with
  | error e => rfl
  | ok i =>
      cases B.int o with
      | error e => rfl
      | ok o => cases B.int t <;> rfl

lemma recordEnd_raised (redacted : Obj) (m m' : SessionMetrics) :
    (recordEnd B redacted m).2 = (recordEnd B redacted m').2 := by
  unfold recordEnd
  split
  · have h := assignCounts_raised (B := B) (SessionMetrics.inToks B redacted)
      (SessionMetrics.outToks B redacted) (SessionMetrics.turnCountOf B redacted) m m'
    unfold SessionMetrics.recordSessionEnd
    generalize m.assignCounts B _ _ _ = r at h ⊢
    generalize m'.assignCounts B _ _ _ = r' at h ⊢
    obtain ⟨m, e⟩ := r
    obtain ⟨m', e'⟩ := r'
    obtain rfl : e = e' := h
    cases e with
    | some e => rfl
    | none => rcases SessionMetrics.cost? B (get redacted "cost_usd") with _ | _ | _ <;> rfl
  · rfl

lemma frames_storeFrame : (storeFrame E B frame s).frames = addRow E B s.frames frame := by
  rw [storeFrame, addRow]
  cases rowOf E B frame with
  | none => rfl
  | some row =>
      by_cases hmem : row.seq ∈ s.frames.map FrameRow.seq
      · simp only [Option.bind_some, Sink.appendFrame, if_pos hmem, Sink.frames_countDropped]
      · simp only [Option.bind_some, Sink.appendFrame, if_neg hmem, Sink.frames_countPersisted]

lemma published_storeFrame : (storeFrame E B frame s).published = s.published := by
  rw [storeFrame]
  cases rowOf E B frame with
  | none => rfl
  | some row =>
      by_cases hmem : row.seq ∈ s.frames.map FrameRow.seq
      · simp only [Option.bind_some, Sink.appendFrame, if_pos hmem, Sink.published_countDropped]
      · simp only [Option.bind_some, Sink.appendFrame, if_neg hmem, Sink.published_countPersisted]

/-- The pipeline in terms of what the frame contributes. -/
lemma persistFrame_spec : (persistFrame E B sid frame s).1.frames = addRow E B s.frames frame ∧
    (persistFrame E B sid frame s).1.published =
      s.published ++ (publicationOf E B sid frame).toList ∧
    (persistFrame E B sid frame s).2.isSome = raises E B sid frame := by
  have hraised := recordEnd_raised (B := B) (E.redactFrame frame) (storeFrame E B frame s).metrics {}
  rw [raises, publicationOf, recordRaises, persistFrame]
  simp only [hraised]
  cases (recordEnd B (E.redactFrame frame) {}).2 with
  | some e => exact ⟨frames_storeFrame, by simp [published_storeFrame], rfl⟩
  | none =>
      cases messageOf E B sid frame with
      | ok message =>
          refine ⟨frames_storeFrame, ?_, rfl⟩
          exact congrArg (· ++ [_]) published_storeFrame
      | error e =>
          refine ⟨frames_storeFrame, ?_, rfl⟩
          exact published_storeFrame.trans (List.append_nil _).symm

lemma frames_persistFrame :
    (persistFrame E B sid frame s).1.frames = addRow E B s.frames frame :=
  persistFrame_spec.1

lemma published_persistFrame :
    (persistFrame E B sid frame s).1.published =
      s.published ++ (publicationOf E B sid frame).toList :=
  persistFrame_spec.2.1

lemma raised_persistFrame :
    (persistFrame E B sid frame s).2.isSome = raises E B sid frame :=
  persistFrame_spec.2.2

/-! ### What a list of frames contributes -/

variable (E B sid) in
/-- The frames that a list of frames gets to: those up to the first that raises. -/
def handed : List Obj → List Obj
  | [] => []
  | frame :: frames => frame :: if raises E B sid frame then [] else handed frames

lemma persistFrames_cons : (persistFrames E B sid (frame :: frames) s).1 =
    if raises E B sid frame then (persistFrame E B sid frame s).1
    else (persistFrames E B sid frames (persistFrame E B sid frame s).1).1 := by
  rw [persistFrames, ← raised_persistFrame (s := s)]
  obtain ⟨s', e⟩ := persistFrame E B sid frame s
  cases e <;> rfl

lemma frames_persistFrames : (persistFrames E B sid frames s).1.frames =
    (handed E B sid frames).foldl (addRow E B) s.frames := by
  induction frames generalizing s with
  | nil => rfl
  | cons frame frames ih =>
      rw [persistFrames_cons, handed, List.foldl_cons]
      split
      · exact frames_persistFrame
      · rw [ih, frames_persistFrame]

lemma published_persistFrames : (persistFrames E B sid frames s).1.published =
    s.published ++ (handed E B sid frames).filterMap (publicationOf E B sid) := by
  induction frames generalizing s with
  | nil => simp [persistFrames, handed]
  | cons frame frames ih =>
      rw [persistFrames_cons, handed, List.filterMap_cons]
      split
      · rename_i hraises
        rw [published_persistFrame]
        have hnone : publicationOf E B sid frame = none := by simpa [raises] using hraises
        simp [hnone]
      · rw [ih, published_persistFrame, List.append_assoc]
        cases publicationOf E B sid frame <;> rfl

/-! ### The rows of the table -/

section Rows

variable {rows : List FrameRow} {row : FrameRow} {n : ℤ}

variable (E B) in
/-- The seq a frame is stored under. -/
def seqOf (frame : Obj) : Option ℤ := (rowOf E B frame).map FrameRow.seq

variable (E B) in
/-- The rows that a list of frames leaves in an empty table. -/
def rowsOf (frames : List Obj) : List FrameRow := frames.foldl (addRow E B) []

lemma addRow_of_none (h : rowOf E B frame = none) : addRow E B rows frame = rows := by
  rw [addRow, h]

lemma addRow_of_mem (h : rowOf E B frame = some row) (hmem : row.seq ∈ rows.map FrameRow.seq) :
    addRow E B rows frame = rows := by
  rw [addRow, h]
  exact if_pos hmem

lemma addRow_of_not_mem (h : rowOf E B frame = some row)
    (hmem : row.seq ∉ rows.map FrameRow.seq) : addRow E B rows frame = rows ++ [row] := by
  rw [addRow, h]
  exact if_neg hmem

lemma rowsOf_concat (frames : List Obj) (frame : Obj) :
    rowsOf E B (frames ++ [frame]) = addRow E B (rowsOf E B frames) frame := by
  rw [rowsOf, List.foldl_append]
  rfl

lemma mem_addRow : row ∈ addRow E B rows frame ↔
    row ∈ rows ∨ rowOf E B frame = some row ∧ row.seq ∉ rows.map FrameRow.seq := by
  cases h : rowOf E B frame with
  | none =>
      rw [addRow_of_none h]
      simp
  | some row' =>
      by_cases hmem : row'.seq ∈ rows.map FrameRow.seq
      · rw [addRow_of_mem h hmem]
        refine ⟨Or.inl, ?_⟩
        rintro (hrow | ⟨hrow, hnot⟩)
        · exact hrow
        · cases hrow
          exact absurd hmem hnot
      · rw [addRow_of_not_mem h hmem, List.mem_append, List.mem_singleton]
        refine or_congr_right ⟨?_, ?_⟩
        · rintro rfl
          exact ⟨rfl, hmem⟩
        · rintro ⟨hrow, -⟩
          exact (Option.some.inj hrow).symm

lemma mem_seqs_addRow : n ∈ (addRow E B rows frame).map FrameRow.seq ↔
    n ∈ rows.map FrameRow.seq ∨ seqOf E B frame = some n := by
  simp only [List.mem_map, mem_addRow, seqOf, Option.map_eq_some_iff]
  constructor
  · rintro ⟨row, hrow | ⟨hrow, -⟩, hn⟩
    · exact Or.inl ⟨row, hrow, hn⟩
    · exact Or.inr ⟨row, hrow, hn⟩
  · rintro (⟨row, hrow, hn⟩ | ⟨row, hrow, hn⟩)
    · exact ⟨row, Or.inl hrow, hn⟩
    · by_cases hmem : ∃ row' ∈ rows, row'.seq = row.seq
      · obtain ⟨row', hrow', hseq⟩ := hmem
        exact ⟨row', Or.inl hrow', hseq.trans hn⟩
      · exact ⟨row, Or.inr ⟨hrow, hmem⟩, hn⟩

/-- The seqs of the table are those of the frames. -/
lemma mem_seqs_rowsOf :
    n ∈ (rowsOf E B frames).map FrameRow.seq ↔ ∃ frame ∈ frames, seqOf E B frame = some n := by
  induction frames using List.reverseRecOn with
  | nil => simp [rowsOf]
  | append_singleton frames frame ih =>
      rw [rowsOf_concat, mem_seqs_addRow, ih]
      simp [or_and_right, exists_or]

/-- The first frame with a seq is the one that is stored under it. -/
lemma origin_of_first {before after : List Obj} (hn : seqOf E B frame = some n)
    (hfirst : ∀ f ∈ before, seqOf E B f ≠ some n)
    (hrow : row ∈ rowsOf E B (before ++ frame :: after)) (hseq : row.seq = n) :
    row.origin = frame := by
  induction after using List.reverseRecOn with
  | nil =>
      rw [rowsOf_concat, mem_addRow] at hrow
      rcases hrow with h | ⟨h, -⟩
      · have hmem : n ∈ (rowsOf E B before).map FrameRow.seq := List.mem_map.mpr ⟨row, h, hseq⟩
        obtain ⟨f, hf, hf'⟩ := mem_seqs_rowsOf.mp hmem
        exact absurd hf' (hfirst f hf)
      · exact origin_rowOf h
  | append_singleton after f ih =>
      rw [← List.cons_append, ← List.append_assoc, rowsOf_concat, mem_addRow] at hrow
      rcases hrow with h | ⟨-, h⟩
      · exact ih h
      · refine absurd (mem_seqs_rowsOf.mpr ⟨frame, ?_, ?_⟩) h
        · simp
        · rw [hn, hseq]

/-- Frames with seqs of their own are all stored. -/
theorem origins_rowsOf (hseq : ∀ frame ∈ frames, (seqOf E B frame).isSome = true)
    (hnodup : (frames.map (seqOf E B)).Nodup) :
    (rowsOf E B frames).map FrameRow.origin = frames := by
  induction frames using List.reverseRecOn with
  | nil => rfl
  | append_singleton frames frame ih =>
      rw [List.map_append, List.nodup_append] at hnodup
      obtain ⟨hnodup, -, hdisjoint⟩ := hnodup
      have hih := ih (fun f hf => hseq f (List.mem_append_left _ hf)) hnodup
      obtain ⟨n, hn⟩ := Option.isSome_iff_exists.mp (hseq frame (by simp))
      obtain ⟨row, hrow, hrown⟩ := Option.map_eq_some_iff.mp hn
      have hnot : row.seq ∉ (rowsOf E B frames).map FrameRow.seq := by
        rw [hrown, mem_seqs_rowsOf]
        rintro ⟨f, hf, hfn⟩
        exact hdisjoint _ (List.mem_map_of_mem hf) _ (by simp) (hfn.trans hn.symm)
      rw [rowsOf_concat, addRow_of_not_mem hrow hnot, List.map_append, hih, List.map_singleton,
        origin_rowOf hrow]

end Rows

end GgRelay.Frames
