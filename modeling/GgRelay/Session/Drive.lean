import GgRelay.Session.Frames.Persist

/-!
The two ways in which `_drive_session` drains the frames of a runner.

* `drainInprocess` is `_drain_inprocess_transport`: every frame goes through the pipeline as it
  arrives;
* `WireBridge.run` is the receive loop of the bridge with the beats of its heartbeat loop and the
  control frames it numbers in between; `driveWire` hands its buffer to the pipeline at the end;
* `Matched` is the condition on the schedule under which the two store and publish the same, up
  to pongs: `drives_agree`;
* `tool_requests_vanish` is a schedule on which they do not.
-/

namespace GgRelay.Frames

/-- The frame can come from a runner: a builder of `session/frames.py` makes it. -/
def EventFrame (frame : Obj) : Prop := ∃ f : Frame, f.dict = frame

/-- The default of `heartbeat_misses_before_unhealthy`. -/
def missesBeforeUnhealthy : ℕ := 3

/-- A `WireBridge`. -/
structure WireBridge where
  frames : List Obj := []
  seq : ℕ := 0
  /-- the frames given to `_handle_tool_request` -/
  requests : List Obj := []
  heartbeatMisses : ℕ := 0
  lastPongSeq : ℤ := -1
  heartbeatUnhealthy : Bool := false
  /-- the heartbeat task runs -/
  beating : Bool := true

/-- What the bridge meets while it runs. -/
inductive Input where
  /-- `recv` returns a frame -/
  | recv (frame : Obj)
  /-- an iteration of the heartbeat loop; `alive` if the transport takes the ping -/
  | beat (now : String) (alive : Bool)
  /-- a decision, a `pause` or a `resume` is sent -/
  | control

/-- The frames among the inputs, in their order. -/
def received : List Input → List Obj
  | [] => []
  | .recv frame :: σ => frame :: received σ
  | .beat _ _ :: σ | .control :: σ => received σ

namespace WireBridge

/-- `_next_seq`. -/
def nextSeq (b : WireBridge) : WireBridge := { b with seq := b.seq + 1 }

/-- The frame of `_handle_heartbeat_timeout`, with the number it takes. -/
def timeoutFrame (now : String) (b : WireBridge) : Frame where
  seq := b.seq + 1
  ts := now
  payload := .error "heartbeat_timeout" "3 consecutive missed pongs" none

/-- `_handle_heartbeat_timeout`. -/
def heartbeatTimeout (now : String) (b : WireBridge) : WireBridge :=
  { b.nextSeq with
    heartbeatUnhealthy := true, beating := false
    frames := b.frames ++ [(b.timeoutFrame now).dict] }

/-- An iteration of `_heartbeat_loop`. -/
def beat (now : String) (alive : Bool) (b : WireBridge) : WireBridge :=
  if b.beating then
    if missesBeforeUnhealthy ≤ b.heartbeatMisses then b.heartbeatTimeout now
    else if alive then { b.nextSeq with heartbeatMisses := b.heartbeatMisses + 1 }
    else { b.nextSeq with beating := false }
  else b

variable (B : Builtins)

/-- An iteration of the receive loop, with what it raises. -/
def recv (frame : Obj) (b : WireBridge) : WireBridge × Option PyError :=
  if hasType "tool.request" frame then ({ b with requests := b.requests ++ [frame] }, none)
  else if hasType "pong" frame then
    let b := { b with heartbeatMisses := 0 }
    match B.int (getD frame "seq" (.scalar (.int (-1)))) with
    | .ok n => ({ b with lastPongSeq := n }, none)
    | .error e => (b, some e)
  -- an ack also wakes its `pause` or `resume`; it is buffered like the rest
  else ({ b with frames := b.frames ++ [frame] }, none)

/-- `run`, on the inputs up to the close of the transport. -/
def run : WireBridge → List Input → WireBridge × Option PyError
  | b, [] => (b, none)
  | b, .recv frame :: σ =>
      match b.recv B frame with
      | (b, some e) => (b, some e)
      | (b, none) => if hasType "session.end" frame then (b, none) else run b σ
  | b, .beat now alive :: σ => run (b.beat now alive) σ
  | b, .control :: σ => run b.nextSeq σ

/-- What `run` buffers. -/
def buffered : WireBridge → List Input → List Obj
  | _, [] => []
  | b, .recv frame :: σ =>
      if hasType "tool.request" frame then buffered (b.recv B frame).1 σ
      else if hasType "pong" frame then
        if (b.recv B frame).2.isSome then [] else buffered (b.recv B frame).1 σ
      else frame :: if hasType "session.end" frame then [] else buffered (b.recv B frame).1 σ
  | b, .beat now alive :: σ =>
      (if b.beating ∧ missesBeforeUnhealthy ≤ b.heartbeatMisses then [(b.timeoutFrame now).dict]
        else []) ++ buffered (b.beat now alive) σ
  | b, .control :: σ => buffered b.nextSeq σ

end WireBridge

section Drives

variable (E : RedactionEngine) (B : Builtins) (sid : String)

/-- `_drain_inprocess_transport`, on the frames received up to the close of the transport. -/
def drainInprocess : List Obj → Sink → Sink × Option PyError
  | [], s => (s, none)
  | frame :: frames, s =>
      match persistFrame E B sid frame s with
      | (s, some e) => (s, some e)
      | (s, none) => if hasType "session.end" frame then (s, none) else drainInprocess frames s

/-- The wire branch of `_drive_session`: whatever `run` raises, its buffer is drained. -/
def driveWire (σ : List Input) (s : Sink) : Sink :=
  (persistFrames E B sid (WireBridge.run B {} σ).1.frames s).1

/-! ### The condition -/

/-- The inputs up to the first frame that ends the drive: a `session.end`, or one on which the
pipeline raises. -/
def live : List Input → List Input
  | [] => []
  | .recv frame :: σ =>
      .recv frame ::
        if hasType "session.end" frame || raises E B sid frame then [] else live σ
  | .beat now alive :: σ => .beat now alive :: live σ
  | .control :: σ => .control :: live σ

/-- From `m` unanswered pings on, the heartbeat loop never finds too many of them. -/
def Answered : ℕ → List Input → Prop
  | _, [] => True
  | m, .recv frame :: σ => Answered (if hasType "pong" frame then 0 else m) σ
  | m, .beat _ alive :: σ => m < missesBeforeUnhealthy ∧ (alive = true → Answered (m + 1) σ)
  | m, .control :: σ => Answered m σ

/-- No pong is the first to carry a seq that a later frame of another type carries. -/
def PongsApart (frames : List Obj) : Prop :=
  ∀ before pong after n, frames = before ++ pong :: after → hasType "pong" pong = true →
    seqOf E B pong = some n → (∀ frame ∈ before, seqOf E B frame ≠ some n) →
      ∀ frame ∈ after, hasType "pong" frame = false → seqOf E B frame ≠ some n

/-- As far as the drive gets: no frame is a tool request, the heartbeat is answered, and the
pongs take no seq from another frame. -/
structure Matched (σ : List Input) : Prop where
  no_request : ∀ frame ∈ received (live E B sid σ), hasType "tool.request" frame = false
  answered : Answered 0 (live E B sid σ)
  apart : PongsApart E B (received (live E B sid σ))

end Drives

/-- Two sinks hold the same rows and publications, up to those of pongs. -/
def Agree (s t : Sink) : Prop :=
  (s.frames.filter fun row => !hasType "pong" row.origin) =
      (t.frames.filter fun row => !hasType "pong" row.origin) ∧
    (s.published.filter fun p => !hasType "pong" p.origin) =
      t.published.filter fun p => !hasType "pong" p.origin

/-! ### Frames and redaction -/

section Redacted

variable {E : RedactionEngine} {B : Builtins} {sid : String}

lemma lookup_redactFrame (d : Obj) (k : String) :
    (E.redactFrame d).lookup k = (d.lookup k).map fun v => E.redactItem (k, v) := by
  rw [RedactionEngine.redactFrame, E.redactDict_eq_map]
  induction d with
  | nil => rfl
  | cons kv d ih =>
      obtain ⟨k', v⟩ := kv
      rw [List.map_cons]
      by_cases h : k = k'
      · subst h
        simp
      · have hbeq : (k == k') = false := by simpa using h
        simp only [List.lookup_cons, hbeq]
        exact ih

lemma get_redactFrame_of_none {d : Obj} {k : String} (h : d.lookup k = none) :
    get (E.redactFrame d) k = .scalar .null := by
  rw [get, getD, lookup_redactFrame, h]
  rfl

lemma get_redactFrame_of_some {d : Obj} {k : String} {v : Json} (h : d.lookup k = some v) :
    get (E.redactFrame d) k = E.redactItem (k, v) := by
  rw [get, getD, lookup_redactFrame, h]
  rfl

lemma lookup_optional {k k' : String} {v : Option Json} (h : k ≠ k') :
    (optional k' v).lookup k = none := by
  cases v with
  | none => rfl
  | some v =>
      have hbeq : (k == k') = false := by simpa using h
      simp [optional, List.lookup_cons, List.lookup_nil, hbeq]

/-- No frame has counts of its own. -/
lemma lookup_count (f : Frame) {k : String}
    (hk : k ∈ ["input_tokens", "output_tokens", "turn_count"]) : f.dict.lookup k = none := by
  simp only [List.mem_cons, List.not_mem_nil, or_false] at hk
  obtain ⟨seq, ts, payload⟩ := f
  rcases hk with rfl | rfl | rfl <;> cases payload <;>
    simp [Frame.dict, Payload.fields, List.lookup_cons, List.lookup_nil, List.lookup_append, lookup_optional]

/-- The metrics raise nothing where there are no counts and no costs. -/
lemma recordRaises_of_none {frame : Obj} (h : ∀ k ∈ ["input_tokens", "output_tokens", "turn_count",
    "tokens", "cost_usd"], frame.lookup k = none) : recordRaises E B frame = none := by
  have hnull : ∀ k ∈ ["input_tokens", "output_tokens", "turn_count", "tokens", "cost_usd"],
      get (E.redactFrame frame) k = .scalar .null := fun k hk => get_redactFrame_of_none (h k hk)
  have htokens : SessionMetrics.tokensOf B (E.redactFrame frame) = [] := by
    rw [SessionMetrics.tokensOf, hnull "tokens" (by simp), or_null]
    rfl
  have hget : ∀ k, get [] k = .scalar .null := fun _ => rfl
  rw [recordRaises, recordEnd]
  split
  · simp [SessionMetrics.recordSessionEnd, SessionMetrics.inToks, SessionMetrics.outToks,
      SessionMetrics.turnCountOf, htokens, hget, hnull, firstTrue, or_null,
      SessionMetrics.assignCounts, B.int_int, SessionMetrics.cost?]
  · rfl

/-- The pipeline does not raise on a frame whose payload has none of the keys that the factories
convert; `args` may be a mapping that the engine leaves one. -/
lemma not_raises (f : Frame)
    (hargs : ∀ v, f.dict.lookup "args" = some v →
      (∃ d, v = .mapping d) ∧ E.sensitive "args" = false)
    (hnone : ∀ k ∈ ["result", "modules", "duration_ms", "tokens", "cost_usd"],
      f.dict.lookup k = none) :
    raises E B sid f.dict = false := by
  have hseq : ∃ n, B.safeInt (get (E.redactFrame f.dict) "seq") = .ok n := by
    rw [get_redactFrame_of_some (v := .scalar (.int f.seq)) rfl, RedactionEngine.redactItem]
    split
    · exact safeInt_str _
    · exact ⟨_, safeInt_int _⟩
  have hdict : ∃ d, B.dict (B.or (get (E.redactFrame f.dict) "args") (.mapping [])) = .ok d := by
    cases h : f.dict.lookup "args" with
    | none =>
        rw [get_redactFrame_of_none h, or_null]
        exact ⟨[], B.dict_mapping []⟩
    | some v =>
        obtain ⟨⟨d, rfl⟩, hs⟩ := hargs v h
        rw [get_redactFrame_of_some h, RedactionEngine.redactItem, hs]
        exact dict_or_mapping _
  have hevent : ∃ e, frameToEvent B sid (E.redactFrame f.dict) = .ok e :=
    frameToEvent_ok hseq hdict fun k hk => get_redactFrame_of_none (hnone k hk)
  obtain ⟨e, he⟩ := hevent
  have hrecord : recordRaises E B f.dict = none := by
    refine recordRaises_of_none fun k hk => ?_
    simp only [List.mem_cons, List.not_mem_nil, or_false] at hk
    rcases hk with rfl | rfl | rfl | rfl | rfl
    · exact lookup_count f (by simp)
    · exact lookup_count f (by simp)
    · exact lookup_count f (by simp)
    · exact hnone _ (by simp)
    · exact hnone _ (by simp)
  rw [raises, publicationOf, hrecord, messageOf, he]
  rfl

lemma payload_of_pong {p : Payload} (h : p.type = "pong") : p = .pong := by
  cases p with
  | pong => rfl
  | hook event => cases event <;> simp [Payload.type, HookEvent.type] at h
  | _ => simp [Payload.type] at h

lemma payload_of_request {p : Payload} (h : p.type = "tool.request") :
    ∃ reqId tool args, p = .toolRequest reqId tool args := by
  cases p with
  | toolRequest reqId tool args => exact ⟨reqId, tool, args, rfl⟩
  | hook event => cases event <;> simp [Payload.type, HookEvent.type] at h
  | _ => simp [Payload.type] at h

lemma not_raises_pong {frame : Obj} (h : EventFrame frame) (hp : hasType "pong" frame = true) :
    raises E B sid frame = false := by
  obtain ⟨⟨seq, ts, payload⟩, rfl⟩ := h
  rw [hasType_dict, decide_eq_true_eq] at hp
  obtain rfl := payload_of_pong hp
  refine not_raises _ (fun v hv => ?_) (by simp [Frame.dict, Payload.fields, List.lookup_cons, List.lookup_nil])
  simp [Frame.dict, Payload.fields, List.lookup_cons, List.lookup_nil] at hv

lemma not_raises_timeoutFrame (now : String) (b : WireBridge) :
    raises E B sid (b.timeoutFrame now).dict = false :=
  not_raises _ (fun v hv => by
      simp [WireBridge.timeoutFrame, Frame.dict, Payload.fields, optional, List.lookup_cons, List.lookup_nil] at hv)
    (by simp [WireBridge.timeoutFrame, Frame.dict, Payload.fields, optional, List.lookup_cons, List.lookup_nil])

/-- Nor does it raise on a request, as long as `args` is no key to mask. -/
lemma not_raises_request (hE : E.sensitive "args" = false) {frame : Obj} (h : EventFrame frame)
    (hr : hasType "tool.request" frame = true) : raises E B sid frame = false := by
  obtain ⟨⟨seq, ts, payload⟩, rfl⟩ := h
  rw [hasType_dict, decide_eq_true_eq] at hr
  obtain ⟨reqId, tool, args, rfl⟩ := payload_of_request hr
  refine not_raises _ (fun v hv => ⟨⟨args, ?_⟩, hE⟩)
    (by simp [Frame.dict, Payload.fields, List.lookup_cons, List.lookup_nil])
  simpa [Frame.dict, Payload.fields, List.lookup_cons, List.lookup_nil] using hv.symm

end Redacted

/-! ### What each path hands over -/

section Handed

variable {E : RedactionEngine} {B : Builtins} {sid : String}

variable (E B sid) in
/-- The frames the in-process path gets to. -/
def reached : List Obj → List Obj
  | [] => []
  | frame :: frames =>
      frame :: if hasType "session.end" frame || raises E B sid frame then [] else reached frames

lemma received_live (σ : List Input) :
    received (live E B sid σ) = reached E B sid (received σ) := by
  induction σ with
  | nil => rfl
  | cons i σ ih =>
      cases i with
      | recv frame =>
          rw [live, received, received, reached]
          split
          · rfl
          · rw [ih]
      | beat now alive => exact ih
      | control => exact ih

lemma received_live_subset {σ : List Input} : received (live E B sid σ) ⊆ received σ := by
  induction σ with
  | nil => exact List.Subset.refl _
  | cons i σ ih =>
      cases i with
      | recv frame =>
          rw [live, received, received]
          refine List.cons_subset_cons _ ?_
          split
          · exact List.nil_subset _
          · exact ih
      | beat now alive => exact ih
      | control => exact ih

lemma drainInprocess_eq (frames : List Obj) (s : Sink) :
    (drainInprocess E B sid frames s).1 = (persistFrames E B sid (reached E B sid frames) s).1 := by
  induction frames generalizing s with
  | nil => rfl
  | cons frame frames ih =>
      rw [drainInprocess, reached, persistFrames_cons, ← raised_persistFrame (s := s)]
      obtain ⟨s', e⟩ := persistFrame E B sid frame s
      cases e with
      | some e => rfl
      | none =>
          by_cases hend : hasType "session.end" frame = true
          · simp [hend, persistFrames]
          · simpa [hend] using ih s'

lemma handed_reached (frames : List Obj) :
    handed E B sid (reached E B sid frames) = reached E B sid frames := by
  induction frames with
  | nil => rfl
  | cons frame frames ih =>
      rw [reached, handed]
      by_cases hraises : raises E B sid frame = true
      · simp [hraises]
      · by_cases hend : hasType "session.end" frame = true
        · simp [hend, handed]
        · simp [hraises, hend, ih]

lemma hasType_unique {frame : Obj} {t t' : String} (h : hasType t frame = true) (ht : t ≠ t') :
    hasType t' frame = false := by
  rw [hasType, decide_eq_true_eq] at h
  rw [hasType, h]
  simpa using ht

lemma recv_of_request (b : WireBridge) {frame : Obj} (h : hasType "tool.request" frame = true) :
    b.recv B frame = ({ b with requests := b.requests ++ [frame] }, none) := by
  rw [WireBridge.recv, if_pos h]

lemma recv_of_pong (b : WireBridge) {frame : Obj} (hp : hasType "pong" frame = true) :
    ∃ n e, b.recv B frame = ({ b with heartbeatMisses := 0, lastPongSeq := n }, e) ∧
      (EventFrame frame → e = none) := by
  rw [WireBridge.recv, if_neg (by simp [hasType_unique hp (by decide : "pong" ≠ "tool.request")]),
    if_pos hp]
  cases hint : B.int (getD frame "seq" (.scalar (.int (-1)))) with
  | ok n => exact ⟨n, none, rfl, fun _ => rfl⟩
  | error e =>
      refine ⟨b.lastPongSeq, some e, rfl, ?_⟩
      rintro ⟨f, rfl⟩
      rw [getD_seq_dict, B.int_int] at hint
      simp at hint

lemma recv_of_other (b : WireBridge) {frame : Obj} (hr : hasType "tool.request" frame = false)
    (hp : hasType "pong" frame = false) :
    b.recv B frame = ({ b with frames := b.frames ++ [frame] }, none) := by
  rw [WireBridge.recv, if_neg (by simp [hr]), if_neg (by simp [hp])]

lemma frames_beat (b : WireBridge) (now : String) (alive : Bool) : (b.beat now alive).frames =
    b.frames ++ if b.beating ∧ missesBeforeUnhealthy ≤ b.heartbeatMisses
      then [(b.timeoutFrame now).dict] else [] := by
  rw [WireBridge.beat]
  by_cases hb : b.beating = true
  · by_cases hm : missesBeforeUnhealthy ≤ b.heartbeatMisses
    · simp [hb, hm, WireBridge.heartbeatTimeout]
    · cases alive <;> simp [hb, hm, WireBridge.nextSeq]
  · simp [hb]

lemma frames_run (b : WireBridge) (σ : List Input) :
    (b.run B σ).1.frames = b.frames ++ b.buffered B σ := by
  induction σ generalizing b with
  | nil => simp [WireBridge.run, WireBridge.buffered]
  | cons i σ ih =>
      cases i with
      | recv frame =>
          by_cases hr : hasType "tool.request" frame = true
          · have hend := hasType_unique hr (by decide : "tool.request" ≠ "session.end")
            rw [WireBridge.run, WireBridge.buffered, recv_of_request b hr]
            simpa [hr, hend] using ih { b with requests := b.requests ++ [frame] }
          by_cases hp : hasType "pong" frame = true
          · have hend := hasType_unique hp (by decide : "pong" ≠ "session.end")
            obtain ⟨n, e, hrecv, -⟩ := recv_of_pong (B := B) b hp
            rw [WireBridge.run, WireBridge.buffered, hrecv]
            cases e with
            | some e => simp [hr, hp]
            | none =>
                simpa [hr, hp, hend] using ih { b with heartbeatMisses := 0, lastPongSeq := n }
          · rw [WireBridge.run, WireBridge.buffered,
              recv_of_other b (by simpa using hr) (by simpa using hp)]
            by_cases hend : hasType "session.end" frame = true
            · simp [hr, hp, hend]
            · simpa [hr, hp, hend] using ih { b with frames := b.frames ++ [frame] }
      | beat now alive =>
          rw [WireBridge.run, WireBridge.buffered, ih, frames_beat, List.append_assoc]
      | control => exact ih _

/-- **While the heartbeat is answered, the bridge hands over the frames that the in-process path
gets to, without the pongs.** -/
lemma handed_buffered {b : WireBridge} {σ : List Input} (hσ : ∀ frame ∈ received σ, EventFrame frame)
    (hr : ∀ frame ∈ received (live E B sid σ), hasType "tool.request" frame = false)
    (ha : b.beating = true → Answered b.heartbeatMisses (live E B sid σ)) :
    handed E B sid (b.buffered B σ) =
      (received (live E B sid σ)).filter fun frame => !hasType "pong" frame := by
  induction σ generalizing b with
  | nil => rfl
  | cons i σ ih =>
      cases i with
      | recv frame =>
          rw [live, received] at hr ⊢
          rw [live, Answered] at ha
          have hreq := hr frame List.mem_cons_self
          have hframe := hσ frame List.mem_cons_self
          have hσ' : ∀ f ∈ received σ, EventFrame f := fun f hf => hσ f (List.mem_cons_of_mem _ hf)
          by_cases hp : hasType "pong" frame = true
          · have hend := hasType_unique hp (by decide : "pong" ≠ "session.end")
            have hraises : raises E B sid frame = false := not_raises_pong hframe hp
            obtain ⟨n, e, hrecv, he⟩ := recv_of_pong (B := B) b hp
            obtain rfl := he hframe
            simp only [hp, hend, hraises, Bool.or_self, Bool.false_eq_true, if_false, if_true]
              at hr ha ⊢
            rw [WireBridge.buffered, hrecv]
            simp only [hreq, hp, Bool.false_eq_true, if_false, if_true, Option.isSome_none]
            rw [ih hσ' (fun f hf => hr f (List.mem_cons_of_mem _ hf)) ha,
              List.filter_cons_of_neg (by simp [hp])]
          · have hpong : hasType "pong" frame = false := by simpa using hp
            rw [WireBridge.buffered, recv_of_other b hreq hpong]
            simp only [hreq, hpong, Bool.false_eq_true, if_false] at ha ⊢
            rw [handed, List.filter_cons_of_pos (by simp [hpong])]
            congr 1
            by_cases hraises : raises E B sid frame = true
            · simp [hraises, received]
            · by_cases hend : hasType "session.end" frame = true
              · simp [hend, received, handed]
              · have hraises' : raises E B sid frame = false := by simpa using hraises
                have hend' : hasType "session.end" frame = false := by simpa using hend
                simp only [hend', hraises', Bool.or_self, Bool.false_eq_true, if_false] at hr ha ⊢
                exact ih hσ' (fun f hf => hr f (List.mem_cons_of_mem _ hf)) ha
      | beat now alive =>
          rw [live, Answered] at ha
          have hquiet : ¬(b.beating = true ∧ missesBeforeUnhealthy ≤ b.heartbeatMisses) := by
            rintro ⟨hb, hm⟩
            exact absurd (ha hb).1 (by omega)
          rw [WireBridge.buffered, if_neg hquiet, List.nil_append]
          refine ih hσ hr fun hb => ?_
          by_cases hbeating : b.beating = true
          · have hm : ¬missesBeforeUnhealthy ≤ b.heartbeatMisses := fun hm => hquiet ⟨hbeating, hm⟩
            cases alive with
            | true =>
                have hmisses : (b.beat now true).heartbeatMisses = b.heartbeatMisses + 1 := by
                  simp [WireBridge.beat, hbeating, hm]
                rw [hmisses]
                exact (ha hbeating).2 rfl
            | false => simp [WireBridge.beat, hbeating, hm] at hb
          · simp [WireBridge.beat, hbeating] at hb
      | control => exact ih hσ hr ha

/-- **Once the heartbeat is not, it hands over one frame more that is published.** -/
lemma published_buffered {b : WireBridge} {σ : List Input}
    (hσ : ∀ frame ∈ received σ, EventFrame frame)
    (hr : ∀ frame ∈ received (live E B sid σ), hasType "tool.request" frame = false)
    (hb : b.beating = true) (ha : ¬Answered b.heartbeatMisses (live E B sid σ)) :
    ((handed E B sid (b.buffered B σ)).filterMap (publicationOf E B sid)).length =
      (((received (live E B sid σ)).filter fun frame => !hasType "pong" frame).filterMap
        (publicationOf E B sid)).length + 1 := by
  induction σ generalizing b with
  | nil => exact absurd trivial ha
  | cons i σ ih =>
      cases i with
      | recv frame =>
          rw [live, received] at hr ⊢
          rw [live, Answered] at ha
          have hreq := hr frame List.mem_cons_self
          have hframe := hσ frame List.mem_cons_self
          have hσ' : ∀ f ∈ received σ, EventFrame f := fun f hf => hσ f (List.mem_cons_of_mem _ hf)
          by_cases hstop : (hasType "session.end" frame || raises E B sid frame) = true
          · rw [if_pos hstop] at ha
            exact absurd trivial ha
          rw [if_neg hstop] at hr ha ⊢
          have hr' : ∀ f ∈ received (live E B sid σ), hasType "tool.request" f = false :=
            fun f hf => hr f (List.mem_cons_of_mem _ hf)
          have hend : hasType "session.end" frame = false := by
            by_contra h
            exact hstop (by simp [h])
          have hraises : raises E B sid frame = false := by
            by_contra h
            exact hstop (by simp [h])
          by_cases hp : hasType "pong" frame = true
          · obtain ⟨n, e, hrecv, he⟩ := recv_of_pong (B := B) b hp
            obtain rfl := he hframe
            rw [if_pos hp] at ha
            rw [WireBridge.buffered, hrecv]
            simp only [hreq, hp, Bool.false_eq_true, if_false, if_true, Option.isSome_none]
            rw [List.filter_cons_of_neg (by simp [hp])]
            exact ih hσ' hr' hb ha
          · have hpong : hasType "pong" frame = false := by simpa using hp
            rw [if_neg hp] at ha
            rw [WireBridge.buffered, recv_of_other b hreq hpong]
            simp only [hreq, hpong, hend, Bool.false_eq_true, if_false]
            rw [handed, List.filter_cons_of_pos (by simp [hpong]), hraises]
            obtain ⟨p, hpub⟩ : ∃ p, publicationOf E B sid frame = some p :=
              Option.isSome_iff_exists.mp (by simpa [raises] using hraises)
            rw [List.filterMap_cons_some hpub, List.filterMap_cons_some hpub, List.length_cons,
              List.length_cons]
            congr 1
            exact ih (b := { b with frames := b.frames ++ [frame] }) hσ' hr' hb ha
      | beat now alive =>
          rw [live, Answered] at ha
          rw [WireBridge.buffered]
          by_cases hm : missesBeforeUnhealthy ≤ b.heartbeatMisses
          · -- the loop gives up here, and never beats again
            have hbeat : b.beat now alive = b.heartbeatTimeout now := by
              rw [WireBridge.beat, if_pos hb, if_pos hm]
            have hraises : raises E B sid (b.timeoutFrame now).dict = false :=
              not_raises_timeoutFrame now b
            obtain ⟨p, hpub⟩ : ∃ p, publicationOf E B sid (b.timeoutFrame now).dict = some p :=
              Option.isSome_iff_exists.mp (by simpa [raises] using hraises)
            have hrest : handed E B sid ((b.heartbeatTimeout now).buffered B σ) =
                (received (live E B sid σ)).filter fun frame => !hasType "pong" frame :=
              handed_buffered hσ hr fun h => by simp [WireBridge.heartbeatTimeout] at h
            rw [if_pos ⟨hb, hm⟩, hbeat, List.singleton_append, handed, hraises,
              List.filterMap_cons_some hpub, List.length_cons, if_neg Bool.false_ne_true, hrest]
            rfl
          · rw [if_neg (fun h => hm h.2), List.nil_append]
            cases alive with
            | true =>
                have hbeat : b.beat now true =
                    { b.nextSeq with heartbeatMisses := b.heartbeatMisses + 1 } := by
                  simp [WireBridge.beat, hb, hm]
                rw [hbeat]
                refine ih hσ hr hb fun h => ha ⟨by omega, fun _ => h⟩
            | false => exact absurd ⟨by omega, by simp⟩ ha
      | control => exact ih hσ hr hb ha

end Handed

/-! ### What each path stores -/

section Rows

variable {E : RedactionEngine} {B : Builtins} {sid : String}

lemma pongsApart_of_concat {frames : List Obj} {frame : Obj}
    (h : PongsApart E B (frames ++ [frame])) : PongsApart E B frames := by
  intro before pong after n hsplit hp hn hfirst f hf
  refine h before pong (after ++ [frame]) n ?_ hp hn hfirst f (List.mem_append_left _ hf)
  rw [hsplit, List.append_assoc, List.cons_append]

/-- Where the pongs are apart, a seq that is taken is taken by another frame. -/
lemma mem_seqs_of_apart {frames : List Obj} {frame : Obj} {n : ℤ}
    (h : PongsApart E B (frames ++ [frame])) (hpong : hasType "pong" frame = false)
    (hn : seqOf E B frame = some n) (htaken : ∃ f ∈ frames, seqOf E B f = some n) :
    ∃ f ∈ frames.filter fun f => !hasType "pong" f, seqOf E B f = some n := by
  have hfind : (frames.find? fun f => decide (seqOf E B f = some n)).isSome = true :=
    List.find?_isSome.mpr (by simpa using htaken)
  obtain ⟨f, hf⟩ := Option.isSome_iff_exists.mp hfind
  obtain ⟨hfn, before, after, hsplit, hfirst⟩ := List.find?_eq_some_iff_append.mp hf
  rw [decide_eq_true_eq] at hfn
  refine ⟨f, List.mem_filter.mpr ⟨by simp [hsplit], ?_⟩, hfn⟩
  by_contra hp
  refine h before f (after ++ [frame]) n ?_ (by simpa using hp) hfn ?_ frame (by simp) hpong hn
  · rw [hsplit, List.append_assoc, List.cons_append]
  · intro g hg
    simpa using hfirst g hg

lemma filter_addRow_of_pong {rows : List FrameRow} {frame : Obj}
    (hp : hasType "pong" frame = true) :
    ((addRow E B rows frame).filter fun row => !hasType "pong" row.origin) =
      rows.filter fun row => !hasType "pong" row.origin := by
  cases hrow : rowOf E B frame with
  | none => rw [addRow_of_none hrow]
  | some row =>
      by_cases hmem : row.seq ∈ rows.map FrameRow.seq
      · rw [addRow_of_mem hrow hmem]
      · rw [addRow_of_not_mem hrow hmem, List.filter_append, List.filter_cons_of_neg,
          List.filter_nil, List.append_nil]
        simp [origin_rowOf hrow, hp]

lemma filter_addRow {rows : List FrameRow} {frame : Obj} (hp : hasType "pong" frame = false)
    (htaken : ∀ n, seqOf E B frame = some n → n ∈ rows.map FrameRow.seq →
      n ∈ (rows.filter fun row => !hasType "pong" row.origin).map FrameRow.seq) :
    ((addRow E B rows frame).filter fun row => !hasType "pong" row.origin) =
      addRow E B (rows.filter fun row => !hasType "pong" row.origin) frame := by
  cases hrow : rowOf E B frame with
  | none => rw [addRow_of_none hrow, addRow_of_none hrow]
  | some row =>
      by_cases hmem : row.seq ∈ rows.map FrameRow.seq
      · have hseq : seqOf E B frame = some row.seq := by rw [seqOf, hrow, Option.map_some]
        rw [addRow_of_mem hrow hmem, addRow_of_mem hrow (htaken _ hseq hmem)]
      · have hmem' : row.seq ∉
            (rows.filter fun row => !hasType "pong" row.origin).map FrameRow.seq :=
          fun h => hmem ((List.filter_sublist.map _).subset h)
        rw [addRow_of_not_mem hrow hmem, addRow_of_not_mem hrow hmem', List.filter_append,
          List.filter_cons_of_pos, List.filter_nil]
        simp [origin_rowOf hrow, hp]

/-- **The pongs of the in-process path take no row from another frame exactly if they are
apart.** -/
theorem rows_agree_iff (frames : List Obj) :
    ((rowsOf E B frames).filter fun row => !hasType "pong" row.origin) =
        rowsOf E B (frames.filter fun frame => !hasType "pong" frame) ↔ PongsApart E B frames := by
  constructor
  · intro hrows before pong after n hsplit hp hn hfirst f hf hpong hfn
    have hmem : n ∈ (rowsOf E B (frames.filter fun f => !hasType "pong" f)).map FrameRow.seq :=
      mem_seqs_rowsOf.mpr ⟨f, List.mem_filter.mpr ⟨by simp [hsplit, hf], by simp [hpong]⟩, hfn⟩
    rw [← hrows] at hmem
    obtain ⟨row, hrow, hseq⟩ := List.mem_map.mp hmem
    obtain ⟨hrow, horigin⟩ := List.mem_filter.mp hrow
    rw [hsplit] at hrow
    rw [origin_of_first hn hfirst hrow hseq, hp] at horigin
    simp at horigin
  · intro h
    induction frames using List.reverseRecOn with
    | nil => rfl
    | append_singleton frames frame ih =>
        have hih := ih (pongsApart_of_concat h)
        rw [rowsOf_concat, List.filter_append]
        by_cases hp : hasType "pong" frame = true
        · rw [List.filter_cons_of_neg (by simp [hp]), List.filter_nil, List.append_nil, ← hih]
          exact filter_addRow_of_pong hp
        · have hpong : hasType "pong" frame = false := by simpa using hp
          rw [List.filter_cons_of_pos (by simp [hpong]), List.filter_nil, rowsOf_concat, ← hih]
          refine filter_addRow hpong fun n hn hmem => ?_
          rw [hih]
          obtain ⟨f, hf, hfn⟩ := mem_seqs_of_apart h hpong hn (mem_seqs_rowsOf.mp hmem)
          exact mem_seqs_rowsOf.mpr ⟨f, hf, hfn⟩

end Rows

/-! ### The two paths -/

section Agreement

variable {E : RedactionEngine} {B : Builtins} {sid : String} {σ : List Input} {m : SessionMetrics}

lemma frames_drainInprocess (frames : List Obj) (m : SessionMetrics) :
    (drainInprocess E B sid frames { metrics := m }).1.frames =
      rowsOf E B (reached E B sid frames) := by
  rw [drainInprocess_eq, frames_persistFrames, handed_reached]
  rfl

lemma published_drainInprocess (frames : List Obj) (m : SessionMetrics) :
    (drainInprocess E B sid frames { metrics := m }).1.published =
      (reached E B sid frames).filterMap (publicationOf E B sid) := by
  rw [drainInprocess_eq, published_persistFrames, handed_reached]
  rfl

lemma frames_driveWire (m : SessionMetrics) :
    (driveWire E B sid σ { metrics := m }).frames =
      rowsOf E B (handed E B sid (WireBridge.buffered B {} σ)) := by
  rw [driveWire, frames_persistFrames, frames_run]
  rfl

lemma published_driveWire (m : SessionMetrics) :
    (driveWire E B sid σ { metrics := m }).published =
      (handed E B sid (WireBridge.buffered B {} σ)).filterMap (publicationOf E B sid) := by
  rw [driveWire, published_persistFrames, frames_run]
  rfl

/-- The publications of a list of frames, without those of its pongs. -/
lemma filter_publications (frames : List Obj) :
    ((frames.filterMap (publicationOf E B sid)).filter fun p => !hasType "pong" p.origin) =
      (frames.filter fun frame => !hasType "pong" frame).filterMap (publicationOf E B sid) := by
  rw [List.filter_filterMap, List.filterMap_filter]
  refine List.filterMap_congr fun frame _ => ?_
  cases hpub : publicationOf E B sid frame with
  | none => simp
  | some p => simp [Option.filter, origin_publicationOf hpub]

/-- The bridge buffers no request and no pong. -/
lemma mem_buffered {b : WireBridge} {frame : Obj} (h : frame ∈ b.buffered B σ) :
    hasType "tool.request" frame = false ∧ hasType "pong" frame = false := by
  induction σ generalizing b with
  | nil => simp [WireBridge.buffered] at h
  | cons i σ ih =>
      cases i with
      | recv f =>
          rw [WireBridge.buffered] at h
          by_cases hr : hasType "tool.request" f = true
          · rw [if_pos hr] at h
            exact ih h
          rw [if_neg hr] at h
          by_cases hp : hasType "pong" f = true
          · rw [if_pos hp] at h
            split at h
            · exact absurd h List.not_mem_nil
            · exact ih h
          · rw [if_neg hp, List.mem_cons] at h
            rcases h with rfl | h
            · exact ⟨by simpa using hr, by simpa using hp⟩
            · split at h
              · exact absurd h List.not_mem_nil
              · exact ih h
      | beat now alive =>
          rw [WireBridge.buffered, List.mem_append] at h
          rcases h with h | h
          · split at h
            · obtain rfl := List.mem_singleton.mp h
              simp [hasType_dict, WireBridge.timeoutFrame, Payload.type]
            · exact absurd h List.not_mem_nil
          · exact ih h
      | control => exact ih h

lemma handed_subset (frames : List Obj) : handed E B sid frames ⊆ frames := by
  induction frames with
  | nil => exact List.Subset.refl _
  | cons frame frames ih =>
      rw [handed]
      split
      · simp
      · exact List.cons_subset_cons _ ih

lemma filter_handed_buffered (b : WireBridge) :
    ((handed E B sid (b.buffered B σ)).filter fun frame => !hasType "pong" frame) =
      handed E B sid (b.buffered B σ) :=
  List.filter_eq_self.mpr fun _ hf => by simp [(mem_buffered (handed_subset _ hf)).2]

/-- The rows of a list without pongs have no pong to leave out. -/
lemma filter_rowsOf (frames : List Obj) :
    ((rowsOf E B (frames.filter fun f => !hasType "pong" f)).filter
        fun row => !hasType "pong" row.origin) =
      rowsOf E B (frames.filter fun f => !hasType "pong" f) := by
  have hapart : PongsApart E B (frames.filter fun f => !hasType "pong" f) := by
    intro before pong after n hsplit hp
    have hmem : pong ∈ frames.filter fun f => !hasType "pong" f := by simp [hsplit]
    simp [hp] at hmem
  rw [(rows_agree_iff _).mpr hapart, List.filter_filter]
  simp

/-- **The two paths agree on every sequence of frames that meets the condition**, and, where the
redactor does not mask `args`, on no other. -/
theorem drives_agree (m : SessionMetrics) (hσ : ∀ frame ∈ received σ, EventFrame frame) :
    (Matched E B sid σ →
      Agree (drainInprocess E B sid (received σ) { metrics := m }).1
        (driveWire E B sid σ { metrics := m })) ∧
    (E.sensitive "args" = false →
      Agree (drainInprocess E B sid (received σ) { metrics := m }).1
        (driveWire E B sid σ { metrics := m }) → Matched E B sid σ) := by
  simp only [Agree, frames_drainInprocess, published_drainInprocess, frames_driveWire,
    published_driveWire, filter_publications, filter_handed_buffered]
  rw [← received_live]
  constructor
  · rintro ⟨hr, ha, hapart⟩
    have hhanded := handed_buffered (b := {}) hσ hr fun _ => ha
    rw [hhanded, (rows_agree_iff _).mpr hapart, filter_rowsOf]
    exact ⟨rfl, rfl⟩
  · rintro hE ⟨hrows, hpublished⟩
    have hr : ∀ frame ∈ received (live E B sid σ), hasType "tool.request" frame = false := by
      intro frame hframe
      by_contra hnot
      have hreq : hasType "tool.request" frame = true := by simpa using hnot
      have hpong := hasType_unique hreq (by decide : "tool.request" ≠ "pong")
      have hraises : raises E B sid frame = false :=
        not_raises_request hE (hσ frame (received_live_subset hframe)) hreq
      obtain ⟨p, hp⟩ : ∃ p, publicationOf E B sid frame = some p :=
        Option.isSome_iff_exists.mp (by simpa [raises] using hraises)
      have hmem : p ∈ ((received (live E B sid σ)).filter fun f => !hasType "pong" f).filterMap
          (publicationOf E B sid) :=
        List.mem_filterMap.mpr ⟨frame, List.mem_filter.mpr ⟨hframe, by simp [hpong]⟩, hp⟩
      rw [hpublished] at hmem
      obtain ⟨f, hf, hfp⟩ := List.mem_filterMap.mp hmem
      have hsame : f = frame := (origin_publicationOf hfp).symm.trans (origin_publicationOf hp)
      rw [← hsame, (mem_buffered (handed_subset _ hf)).1] at hreq
      exact Bool.false_ne_true hreq
    have ha : Answered 0 (live E B sid σ) := by
      by_contra hnot
      have hlength := published_buffered (b := {}) hσ hr rfl hnot
      rw [← hpublished] at hlength
      omega
    have hhanded := handed_buffered (b := {}) hσ hr fun _ => ha
    refine ⟨hr, ha, (rows_agree_iff _).mp ?_⟩
    rw [hrows, hhanded, filter_rowsOf]

end Agreement

/-- A chunk and the end of the session, with a beat in between. -/
def quietSchedule : List Input :=
  [.recv (Frame.mk 1 "t" (.msgChunk [])).dict, .beat "t" true,
    .recv (Frame.mk 2 "t" (.sessionEnd "completed" none none)).dict]

theorem drives_agree_quietSchedule :
    Agree
      (drainInprocess (.new id [] DEFAULT_SENSITIVE_KEYS) .plain "s" (received quietSchedule) {}).1
      (driveWire (.new id [] DEFAULT_SENSITIVE_KEYS) .plain "s" quietSchedule {}) := by
  have hlive : live (.new id [] DEFAULT_SENSITIVE_KEYS) .plain "s" quietSchedule =
      quietSchedule := rfl
  have hpong : ∀ frame ∈ received quietSchedule, hasType "pong" frame = false := by decide
  refine (drives_agree {} ?_).1 ⟨?_, ?_, ?_⟩
  · simp only [quietSchedule, received, List.forall_mem_cons]
    exact ⟨⟨_, rfl⟩, ⟨_, rfl⟩, by simp⟩
  · decide
  · rw [hlive]
    simp [quietSchedule, Answered, missesBeforeUnhealthy]
  · rw [hlive]
    intro before pong after n hsplit hp
    have hmem : pong ∈ received quietSchedule := by simp [hsplit]
    simp [hpong pong hmem] at hp

/-- A request that the host is asked about, before the end of the session. -/
def requestSchedule : List Input :=
  [.recv (Frame.mk 1 "t" (.toolRequest "r" "Bash" [])).dict,
    .recv (Frame.mk 2 "t" (.sessionEnd "completed" none none)).dict]

/-- **The wire path neither stores nor publishes a tool request.** -/
theorem tool_requests_vanish :
    ¬Agree
      (drainInprocess (.new id [] DEFAULT_SENSITIVE_KEYS) .plain "s" (received requestSchedule) {}).1
      (driveWire (.new id [] DEFAULT_SENSITIVE_KEYS) .plain "s" requestSchedule {}) := by
  rintro ⟨hrows, -⟩
  have hlength := congrArg List.length hrows
  revert hlength
  decide

end GgRelay.Frames
