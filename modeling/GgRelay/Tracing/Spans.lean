import GgRelay.Lib.Dict
import GgRelay.Lib.Items

/-!
The spans of the sessions (`tracing/subscriber.py`, `OtelSubscriber`).

* `Span` is what the tracer records, `Subscriber` has the three tables; a span in a table stands at
  a `Place`, and its attributes say which (`Span.place`);
* `handle` is what a delivered event does, `exit` the clean-up of `run`;
* `Lifecycle` is what is to hold of a sequence of events, `Orderly` what it asks of them;
* the handlers are made of a few kinds of `Move`; `Inv` is what every move keeps: what stands in a
  table is open, and stands at its place; a span is `Lost` if it is open and does not.
-/

namespace GgRelay.Spans

/-- The spans are numbered as they start. -/
abbrev SpanId := ℕ

/-- A span that was started; `ends` counts the calls of `end`. -/
structure Span where
  name : String
  parent : Option SpanId
  attributes : List (String × String)
  events : List (String × String) := []
  ends : ℕ := 0
  deriving DecidableEq, Repr

/-- Where a span is kept: in `_roots`, `_runs` or `_tools`, under a key. -/
inductive Place where
  | root (sid : String)
  | run (sid : String)
  | tool (reqId : String)
  deriving DecidableEq, Repr

namespace Span

variable (x : Span)

/-- The session. -/
def sessionId : Option String := x.attributes.lookup "session.id"

/-- The place that the name and the attributes tell. -/
def place : Option Place :=
  if x.name = "relay.session" then x.sessionId.map .root
  else if x.name = "relay.session.run" then x.sessionId.map .run
  else if x.name = "relay.tool_call" then (x.attributes.lookup "gg_relay.req_id").map .tool
  else none

/-- `set_attribute` for each of these, and `end`. -/
def close (marks : List (String × String)) : Span :=
  { x with
    attributes := marks.foldl (fun attrs p => Items.set p.1 p.2 attrs) x.attributes
    ends := x.ends + 1 }

end Span

/-- The subscriber, with what the tracer has recorded. -/
structure Subscriber where
  spans : List Span := []
  roots : Dict String SpanId := ∅
  runs : Dict String SpanId := ∅
  tools : Dict String SpanId := ∅

/-- A delivered event, as far as it is read; of a frame the fields that are texts, and the texts of
its code and message. -/
inductive Event where
  | stateChanged (sid toState : String) (reason : Option String)
  | toolRequested (sid reqId tool : String)
  | toolResolved (reqId : String) (ok : Bool) (error : Option String)
  | installError (sid code message : String)
  | frame (sid type : Option String) (code message : String)
  deriving DecidableEq, Repr

/-- `_TERMINAL_STATES`. -/
def terminalStates : List String := ["completed", "failed", "cancelled", "interrupted"]

/-- A text of at most 512 characters. -/
def clip (s : String) : String := String.ofList (s.toList.take 512)

namespace Subscriber

variable (s : Subscriber)

/-- What stands at a place. -/
def find : Place → Option SpanId
  | .root sid => s.roots.lookup sid
  | .run sid => s.runs.lookup sid
  | .tool reqId => s.tools.lookup reqId

/-- `start_span`, without a place. -/
def start (x : Span) : Subscriber := { s with spans := s.spans ++ [x] }

/-- A span is started, and kept at a place. -/
def startAt (p : Place) (x : Span) : Subscriber :=
  let s' := s.start x
  match p with
  | .root sid => { s' with roots := s.roots.insert sid s.spans.length }
  | .run sid => { s' with runs := s.runs.insert sid s.spans.length }
  | .tool reqId => { s' with tools := s.tools.insert reqId s.spans.length }

/-- `pop`. -/
def pop (p : Place) : Subscriber :=
  match p with
  | .root sid => { s with roots := s.roots.erase sid }
  | .run sid => { s with runs := s.runs.erase sid }
  | .tool reqId => { s with tools := s.tools.erase reqId }

/-- The span at a place is popped and ended, if there is one. -/
def closeAt (p : Place) (marks : List (String × String)) : Subscriber :=
  match s.find p with
  | some i => { s.pop p with spans := s.spans.modify i fun x => x.close marks }
  | none => s

/-- The run of a session, or its root. -/
def current (sid : String) : Option SpanId := (s.find (.run sid)).or (s.find (.root sid))

/-- `add_event`. -/
def addEvent (i : SpanId) (code message : String) : Subscriber :=
  { s with
    spans := s.spans.modify i fun x => { x with events := x.events ++ [(code, clip message)] } }

end Subscriber

/-! ### The handlers -/

section Handlers

variable (s : Subscriber)

/-- The attributes that every span of a session has. -/
def sessionAttributes (sid : String) : List (String × String) :=
  [("session.id", sid), ("gg_relay.session_id", sid)]

/-- An attribute that is written under its old name too. -/
def marked (key value : String) : List (String × String) :=
  [(key, value), ("gg_relay." ++ key, value)]

/-- The marks of a reason, if there is one. -/
def reasonMarks (reason : Option String) : List (String × String) :=
  match reason.filter (· ≠ "") with
  | some reason => marked "end_reason" reason
  | none => []

/-- The root of the session is opened, unless it is open. -/
def openRoot (sid : String) : Subscriber :=
  if s.find (.root sid) = none then
    s.startAt (.root sid) ⟨"relay.session", none, sessionAttributes sid, [], 0⟩
  else s

/-- A run is started under the root, unless one is open. -/
def openRun (sid : String) : Subscriber :=
  if s.find (.run sid) = none then
    s.startAt (.run sid)
      ⟨"relay.session.run", s.find (.root sid), sessionAttributes sid, [], 0⟩
  else s

/-- `_open_or_resume_run`. -/
def openOrResumeRun (sid : String) : Subscriber := openRun (openRoot s sid) sid

/-- `_end_run`. -/
def endRun (sid : String) (endReason : Option String) : Subscriber :=
  s.closeAt (.run sid) (reasonMarks endReason)

/-- A tool span that `_terminate` takes for one of the session. -/
def ofSession (sid : String) (i : SpanId) : Bool :=
  s.spans[i]?.any fun x =>
    decide (x.attributes.lookup "session.id" = some sid) ||
      decide (x.attributes.lookup "gg_relay.session_id" = some sid)

/-- A tool span that is still open is ended, if it is one of the session. -/
def endTool (sid : String) (s : Subscriber) (e : (_ : String) × SpanId) : Subscriber :=
  if ofSession s sid e.2 then s.closeAt (.tool e.1) [("gg_relay.tool_status", "unresolved")] else s

/-- The tool spans of the session are ended. -/
def endTools (sid : String) : Subscriber := s.tools.entries.foldl (endTool sid) s

/-- The span that tells the end, under the root. -/
def finalize (sid toState : String) (reason : Option String) : Subscriber :=
  match s.find (.root sid) with
  | some root =>
      let final : Span :=
        ⟨"relay.session.finalize", some root,
          sessionAttributes sid ++ marked "end_status" toState, [], 0⟩
      s.start (final.close (reasonMarks reason))
  | none => s

/-- `_terminate`. -/
def terminate (sid toState : String) (reason : Option String) : Subscriber :=
  let marks := marked "end_status" toState ++ reasonMarks reason
  let s := (endTools s sid).closeAt (.run sid) marks
  (finalize s sid toState reason).closeAt (.root sid) marks

/-- `_on_state`. -/
def onState (sid toState : String) (reason : Option String) : Subscriber :=
  if sid = "" ∨ toState = "" then s
  else if toState = "running" then openOrResumeRun s sid
  else if toState = "paused" then endRun s sid (some "paused")
  else if toState ∈ terminalStates then terminate s sid toState reason
  else s

/-- `_on_tool_request`. -/
def onToolRequest (sid reqId tool : String) : Subscriber :=
  if reqId = "" then s
  else
    s.startAt (.tool reqId)
      ⟨"relay.tool_call", s.current sid, sessionAttributes sid ++
        [("gg_relay.req_id", reqId), ("gg_relay.tool", tool), ("gen_ai.tool.name", tool)], [], 0⟩

/-- `_on_tool_result`. -/
def onToolResult (reqId : String) (ok : Bool) (error : Option String) : Subscriber :=
  s.closeAt (.tool reqId) (("gg_relay.tool_status", if ok then "ok" else "error") ::
    ((error.filter (· ≠ "")).map fun e => ("gg_relay.tool_error", clip e)).toList)

/-- `_on_install_error`, and what `_on_legacy_frame` does with an error. -/
def onError (sid code message : String) : Subscriber :=
  match s.current sid with
  | some i => s.addEvent i code message
  | none => s

/-- `_on_legacy_frame`. -/
def onLegacyFrame (sid type : Option String) (code message : String) : Subscriber :=
  match sid, type with
  | some sid, some "error" => onError s sid code message
  | _, _ => s

/-- A delivered event. -/
def handle : Event → Subscriber
  | .stateChanged sid toState reason => onState s sid toState reason
  | .toolRequested sid reqId tool => onToolRequest s sid reqId tool
  | .toolResolved reqId ok error => onToolResult s reqId ok error
  | .installError sid code message => onError s sid code message
  | .frame sid type code message => onLegacyFrame s sid type code message

/-- The spans of a table are ended. -/
def closeAll (place : String → Place) (keys : List String) : Subscriber :=
  keys.foldl (fun s k => s.closeAt (place k) []) s

/-- The end of `run`: what stands in a table is ended. -/
def exit : Subscriber :=
  let s := closeAll s .tool s.tools.keys
  let s := closeAll s .run s.runs.keys
  closeAll s .root s.roots.keys

end Handlers

/-- The state after these events. -/
def after (evs : List Event) : Subscriber := evs.foldl handle {}

/-! ### What is to hold -/

/-- The session that an event ends. -/
def Event.terminates : Event → Option String
  | .stateChanged sid toState _ => if sid ≠ "" ∧ toState ∈ terminalStates then some sid else none
  | _ => none

/-- The session of which an event may open a span. -/
def Event.starts : Event → Option String
  | .stateChanged sid toState _ => if sid ≠ "" ∧ toState = "running" then some sid else none
  | .toolRequested sid reqId _ => if reqId ≠ "" then some sid else none
  | _ => none

/-- The events have ended the session. -/
def Terminated (evs : List Event) (sid : String) : Prop := ∃ ev ∈ evs, ev.terminates = some sid

/-- A span that is open. -/
def Span.Open (x : Span) : Prop := x.ends = 0

instance (x : Span) : Decidable x.Open := inferInstanceAs (Decidable (_ = _))

/-- The parent of a span is an open root or run of the session. -/
def OwnParent (s : Subscriber) (sid : String) (x : Span) : Prop :=
  ∃ i y, x.parent = some i ∧ s.spans[i]? = some y ∧ y.Open ∧
    (y.place = some (.root sid) ∨ y.place = some (.run sid))

/-- **The lifecycle of the spans.** -/
structure Lifecycle (evs : List Event) : Prop where
  /-- every span is ended once -/
  ended : ∀ x ∈ (exit (after evs)).spans, x.ends = 1
  /-- a run or tool span that is started while the root is open is a child of the session's -/
  parents : ∀ before ev, before ++ [ev] <+: evs →
    ∀ x ∈ (after (before ++ [ev])).spans.drop (after before).spans.length, ∀ sid,
      x.sessionId = some sid → x.name = "relay.session.run" ∨ x.name = "relay.tool_call" →
      (∃ y ∈ (after (before ++ [ev])).spans, y.Open ∧ y.place = some (.root sid)) →
      OwnParent (after (before ++ [ev])) sid x
  /-- no span of a session is or becomes open after the terminal event -/
  closed : ∀ before sid, before <+: evs → Terminated before sid →
    ∀ x ∈ (after before).spans, x.sessionId = some sid → ¬x.Open

/-- The session of the tool request that waits under an id, after one more event. -/
def pendingStep (reqId : String) (waiting : Option String) : Event → Option String
  | .toolRequested sid reqId' _ => if reqId' ≠ "" ∧ reqId' = reqId then some sid else waiting
  | .toolResolved reqId' _ _ => if reqId' = reqId then none else waiting
  | ev => if ev.terminates ≠ none ∧ ev.terminates = waiting then none else waiting

/-- The session of the tool request that waits under an id. -/
def pending (evs : List Event) (reqId : String) : Option String :=
  evs.foldl (pendingStep reqId) none

/-- No tool request reuses an id under which another one waits, and no event starts a span of a
session that has ended. -/
def Orderly (evs : List Event) : Prop :=
  ∀ before ev, before ++ [ev] <+: evs →
    (∀ sid reqId tool, ev = .toolRequested sid reqId tool → reqId ≠ "" →
      pending before reqId = none) ∧
    ∀ sid, ev.starts = some sid → ¬Terminated before sid

/-! ### The tables -/

namespace Span

/-- The attributes that tell where a span belongs. -/
def identity : List String := ["session.id", "gg_relay.session_id", "gg_relay.req_id"]

/-- Marks that leave them alone. -/
def Safe (marks : List (String × String)) : Prop := ∀ k ∈ identity, k ∉ marks.map Prod.fst

variable {x : Span} {marks : List (String × String)}

lemma lookup_close {k : String} (h : k ∉ marks.map Prod.fst) :
    (x.close marks).attributes.lookup k = x.attributes.lookup k := by
  rw [close]
  generalize x.attributes = attrs
  induction marks generalizing attrs with
  | nil => rfl
  | cons p marks ih =>
      rw [List.map_cons, List.mem_cons, not_or] at h
      rw [List.foldl_cons, ih h.2, Items.lookup_set, if_neg h.1]

lemma sessionId_close (h : Safe marks) : (x.close marks).sessionId = x.sessionId :=
  lookup_close (h _ (by decide))

lemma place_close (h : Safe marks) : (x.close marks).place = x.place := by
  rw [place, sessionId_close h, lookup_close (h _ (by decide))]
  rfl

end Span

namespace Subscriber

variable {s : Subscriber} {p q : Place} {x : Span} {marks : List (String × String)}

@[simp] lemma find_start : (s.start x).find q = s.find q := by
  cases q <;> rfl

lemma find_startAt : (s.startAt p x).find q = if q = p then some s.spans.length else s.find q := by
  cases p <;> cases q <;> simp only [startAt, start, find, reduceCtorEq, if_false, Place.root.injEq,
    Place.run.injEq, Place.tool.injEq] <;> split_ifs with h
  all_goals first
    | (subst h; exact AList.lookup_insert _)
    | exact AList.lookup_insert_ne h

lemma find_pop : (s.pop p).find q = if q = p then none else s.find q := by
  cases p <;> cases q <;> simp only [pop, find, reduceCtorEq, if_false, Place.root.injEq,
    Place.run.injEq, Place.tool.injEq] <;> split_ifs with h
  all_goals first
    | (subst h; exact AList.lookup_erase _ _)
    | exact AList.lookup_erase_ne h

lemma find_closeAt : (s.closeAt p marks).find q = if q = p then none else s.find q := by
  rw [closeAt]
  cases h : s.find p with
  | none =>
      split_ifs with hq
      · rw [hq, h]
      · rfl
  | some i =>
      rw [← find_pop]
      cases q <;> rfl

@[simp] lemma spans_start : (s.start x).spans = s.spans ++ [x] := rfl

@[simp] lemma spans_startAt : (s.startAt p x).spans = s.spans ++ [x] := by
  cases p <;> rfl

@[simp] lemma spans_pop : (s.pop p).spans = s.spans := by
  cases p <;> rfl

/-- What a span is after one is closed. -/
lemma getElem?_closeAt (i : ℕ) :
    (s.closeAt p marks).spans[i]?
      = s.spans[i]?.map fun x => if s.find p = some i then x.close marks else x := by
  rw [closeAt]
  cases h : s.find p with
  | none => simp
  | some j =>
      simp only [List.getElem?_modify, Option.some.injEq]
      split_ifs <;> rfl

end Subscriber

/-! ### Moves -/

/-- A span of a session says so twice. -/
def Span.Named (x : Span) : Prop :=
  ∃ sid, x.sessionId = some sid ∧ x.attributes.lookup "gg_relay.session_id" = some sid

/-- A handler is made of these moves: `ses` is the session of the spans that it may open, and
`clean` says that it does not start a span at a place that is taken. -/
inductive Move (ses : Option String) (clean : Prop) (s : Subscriber) : Subscriber → Prop
  | start (x : Span) : x.ends = 1 → x.place = none → x.Named → Move ses clean s (s.start x)
  | startAt (p : Place) (x : Span) : x.Open → x.place = some p → x.sessionId = ses → x.Named →
      ((clean ∨ ∀ reqId, p ≠ .tool reqId) → s.find p = none) → Move ses clean s (s.startAt p x)
  | closeAt (p : Place) (marks : List (String × String)) : Span.Safe marks →
      Move ses clean s (s.closeAt p marks)
  | addEvent (i : SpanId) (code message : String) : Move ses clean s (s.addEvent i code message)

/-- Any number of moves. -/
def Moves (ses : Option String) (clean : Prop) : Subscriber → Subscriber → Prop :=
  Relation.ReflTransGen (Move ses clean)

/-- What a span is for, which it keeps. -/
structure Span.Same (x y : Span) : Prop where
  place : y.place = x.place
  sessionId : y.sessionId = x.sessionId
  double : y.attributes.lookup "gg_relay.session_id" = x.attributes.lookup "gg_relay.session_id"

/-- What stands in a table is open and stands at its place; only tool spans may be open elsewhere.
-/
structure Inv (s : Subscriber) : Prop where
  find : ∀ (p : Place) (i : SpanId), s.find p = some i →
    ∃ x : Span, s.spans[i]? = some x ∧ x.place = some p ∧ x.Open
  ends : ∀ (i : SpanId) (x : Span), s.spans[i]? = some x → x.ends ≤ 1
  named : ∀ (i : SpanId) (x : Span), s.spans[i]? = some x → x.Named
  kept : ∀ (i : SpanId) (x : Span), s.spans[i]? = some x → x.Open →
    (∃ reqId, x.place = some (.tool reqId)) ∨ ∃ p, s.find p = some i

/-- A span that is open and stands in no table. -/
def Lost (s : Subscriber) (i : SpanId) : Prop :=
  (∃ x : Span, s.spans[i]? = some x ∧ x.Open) ∧ ∀ p, s.find p ≠ some i

section Moves

variable {s t : Subscriber} {ses : Option String} {clean : Prop}

lemma Span.Same.refl (x : Span) : x.Same x := ⟨rfl, rfl, rfl⟩

lemma Span.Same.trans {x y z : Span} (h : x.Same y) (h' : y.Same z) : x.Same z :=
  ⟨h'.place.trans h.place, h'.sessionId.trans h.sessionId, h'.double.trans h.double⟩

lemma Span.Same.named {x y : Span} (h : x.Same y) (hx : x.Named) : y.Named := by
  obtain ⟨sid, hsid, hdouble⟩ := hx
  exact ⟨sid, h.sessionId.trans hsid, h.double.trans hdouble⟩

lemma Span.same_close {x : Span} {marks : List (String × String)} (h : Span.Safe marks) :
    x.Same (x.close marks) :=
  ⟨place_close h, sessionId_close h, lookup_close (h _ (by decide))⟩

lemma getElem?_concat_eq_some {α : Type} {xs : List α} {a y : α} {i : ℕ} :
    (xs ++ [a])[i]? = some y ↔ xs[i]? = some y ∨ i = xs.length ∧ a = y := by
  rcases lt_trichotomy i xs.length with h | h | h
  · rw [List.getElem?_append_left h]
    simp [h.ne]
  · subst h
    simp
  · rw [List.getElem?_eq_none (by simp; omega), List.getElem?_eq_none (by omega)]
    simp [h.ne']

lemma getElem?_addEvent {i j : SpanId} {code message : String} :
    (s.addEvent i code message).spans[j]? = s.spans[j]?.map fun x =>
      if i = j then { x with events := x.events ++ [(code, clip message)] } else x := by
  simp only [Subscriber.addEvent, List.getElem?_modify]
  split_ifs <;> simp

lemma find_addEvent {i : SpanId} {code message : String} {p : Place} :
    (s.addEvent i code message).find p = s.find p := by
  cases p <;> rfl

/-- A span stays, and stays what it is for. -/
lemma Move.span (h : Move ses clean s t) {i : SpanId} {x : Span} (hx : s.spans[i]? = some x) :
    ∃ y : Span, t.spans[i]? = some y ∧ x.Same y ∧ (y.Open → x.Open) := by
  cases h with
  | start z _ _ _ =>
      exact ⟨x, getElem?_concat_eq_some.mpr (Or.inl hx), Span.Same.refl x, id⟩
  | startAt p z _ _ _ _ _ =>
      rw [Subscriber.spans_startAt]
      exact ⟨x, getElem?_concat_eq_some.mpr (Or.inl hx), Span.Same.refl x, id⟩
  | closeAt p marks hmarks =>
      rw [Subscriber.getElem?_closeAt, hx, Option.map_some]
      split_ifs
      · exact ⟨_, rfl, Span.same_close hmarks, fun h => absurd h (Nat.succ_ne_zero _)⟩
      · exact ⟨x, rfl, Span.Same.refl x, id⟩
  | addEvent j code message =>
      rw [getElem?_addEvent, hx, Option.map_some]
      split_ifs
      · exact ⟨_, rfl, ⟨rfl, rfl, rfl⟩, id⟩
      · exact ⟨x, rfl, Span.Same.refl x, id⟩

lemma Inv.lt_length (h : Inv s) {p : Place} {i : SpanId} (hi : s.find p = some i) :
    i < s.spans.length := by
  obtain ⟨x, hx, -⟩ := h.find p i hi
  exact (List.getElem?_eq_some_iff.mp hx).1

/-- A span stands at one place. -/
lemma Inv.find_unique (h : Inv s) {p q : Place} {i : SpanId} (hp : s.find p = some i)
    (hq : s.find q = some i) : p = q := by
  obtain ⟨x, hx, hplace, -⟩ := h.find p i hp
  obtain ⟨y, hy, hplace', -⟩ := h.find q i hq
  obtain rfl := Option.some.inj (hx.symm.trans hy)
  exact Option.some.inj (hplace.symm.trans hplace')

lemma Inv.start (hs : Inv s) {x : Span} (hends : x.ends = 1) (hnamed : x.Named) :
    Inv (s.start x) where
  find p i hi := by
    rw [Subscriber.find_start] at hi
    obtain ⟨y, hy, hplace⟩ := hs.find p i hi
    exact ⟨y, getElem?_concat_eq_some.mpr (Or.inl hy), hplace⟩
  ends i y hy := by
    rcases getElem?_concat_eq_some.mp hy with hy | ⟨-, rfl⟩
    · exact hs.ends i y hy
    · exact hends.le
  named i y hy := by
    rcases getElem?_concat_eq_some.mp hy with hy | ⟨-, rfl⟩
    · exact hs.named i y hy
    · exact hnamed
  kept i y hy hopen := by
    simp only [Subscriber.find_start]
    rcases getElem?_concat_eq_some.mp hy with hy | ⟨-, rfl⟩
    · exact hs.kept i y hy hopen
    · exact absurd (hends.symm.trans hopen) one_ne_zero

lemma Inv.startAt (hs : Inv s) {p : Place} {x : Span} (hopen : x.Open) (hplace : x.place = some p)
    (hnamed : x.Named) (hfree : (∀ reqId, p ≠ .tool reqId) → s.find p = none) :
    Inv (s.startAt p x) where
  find q i hi := by
    rw [Subscriber.spans_startAt]
    rw [Subscriber.find_startAt] at hi
    split_ifs at hi with hq
    · exact ⟨x, getElem?_concat_eq_some.mpr (Or.inr ⟨(Option.some.inj hi).symm, rfl⟩),
        hq ▸ hplace, hopen⟩
    · obtain ⟨y, hy, hplace⟩ := hs.find q i hi
      exact ⟨y, getElem?_concat_eq_some.mpr (Or.inl hy), hplace⟩
  ends i y hy := by
    rw [Subscriber.spans_startAt] at hy
    rcases getElem?_concat_eq_some.mp hy with hy | ⟨-, rfl⟩
    · exact hs.ends i y hy
    · exact (show x.ends = 0 from hopen) ▸ Nat.zero_le 1
  named i y hy := by
    rw [Subscriber.spans_startAt] at hy
    rcases getElem?_concat_eq_some.mp hy with hy | ⟨-, rfl⟩
    · exact hs.named i y hy
    · exact hnamed
  kept i y hy hopen' := by
    rw [Subscriber.spans_startAt] at hy
    simp only [Subscriber.find_startAt]
    rcases getElem?_concat_eq_some.mp hy with hy | ⟨rfl, rfl⟩
    · rcases hs.kept i y hy hopen' with htool | ⟨q, hq⟩
      · exact Or.inl htool
      by_cases hqp : q = p
      · -- the span that stood there before is a tool span
        subst hqp
        by_cases htool : ∃ reqId, q = .tool reqId
        · obtain ⟨z, hz, hplace', -⟩ := hs.find q i hq
          obtain rfl := Option.some.inj (hy.symm.trans hz)
          obtain ⟨reqId, rfl⟩ := htool
          exact Or.inl ⟨reqId, hplace'⟩
        · rw [hfree fun reqId h => htool ⟨reqId, h⟩] at hq
          cases hq
      · exact Or.inr ⟨q, by rw [if_neg hqp, hq]⟩
    · exact Or.inr ⟨p, by rw [if_pos rfl]⟩

lemma Inv.closeAt (hs : Inv s) (p : Place) {marks : List (String × String)}
    (hmarks : Span.Safe marks) : Inv (s.closeAt p marks) where
  find q i hi := by
    rw [Subscriber.find_closeAt] at hi
    split_ifs at hi with hq
    obtain ⟨y, hy, hplace⟩ := hs.find q i hi
    have hne : s.find p ≠ some i := fun hp => hq (hs.find_unique hi hp)
    exact ⟨y, by rw [Subscriber.getElem?_closeAt, hy, Option.map_some, if_neg hne], hplace⟩
  ends i y hy := by
    rw [Subscriber.getElem?_closeAt] at hy
    obtain ⟨x, hx, rfl⟩ := Option.map_eq_some_iff.mp hy
    split_ifs with hp
    · obtain ⟨z, hz, -, hopen⟩ := hs.find p i hp
      obtain rfl := Option.some.inj (hx.symm.trans hz)
      exact (congrArg Nat.succ hopen).le
    · exact hs.ends i x hx
  named i y hy := by
    rw [Subscriber.getElem?_closeAt] at hy
    obtain ⟨x, hx, rfl⟩ := Option.map_eq_some_iff.mp hy
    split_ifs
    · exact (Span.same_close hmarks).named (hs.named i x hx)
    · exact hs.named i x hx
  kept i y hy hopen := by
    rw [Subscriber.getElem?_closeAt] at hy
    obtain ⟨x, hx, rfl⟩ := Option.map_eq_some_iff.mp hy
    split_ifs at hopen ⊢ with hp
    · exact absurd hopen (Nat.succ_ne_zero _)
    · refine (hs.kept i x hx hopen).imp_right fun ⟨q, hq⟩ => ⟨q, ?_⟩
      have hne : q ≠ p := by
        rintro rfl
        exact hp hq
      rw [Subscriber.find_closeAt, if_neg hne, hq]

lemma Inv.addEvent (hs : Inv s) (j : SpanId) (code message : String) :
    Inv (s.addEvent j code message) := by
  have hspan : ∀ (i : SpanId) (y : Span), (s.addEvent j code message).spans[i]? = some y →
      ∃ x : Span, s.spans[i]? = some x ∧ y.ends = x.ends ∧ x.Same y := by
    intro i y hy
    rw [getElem?_addEvent] at hy
    obtain ⟨x, hx, rfl⟩ := Option.map_eq_some_iff.mp hy
    refine ⟨x, hx, ?_⟩
    split_ifs
    · exact ⟨rfl, rfl, rfl, rfl⟩
    · exact ⟨rfl, Span.Same.refl x⟩
  constructor
  · intro p i hi
    rw [find_addEvent] at hi
    obtain ⟨x, hx, hplace, hopen⟩ := hs.find p i hi
    obtain ⟨y, hy, hsame, -⟩ := (@Move.addEvent none True s j code message).span hx
    obtain ⟨x', hx', hends, -⟩ := hspan i y hy
    obtain rfl := Option.some.inj (hx.symm.trans hx')
    exact ⟨y, hy, hsame.place.trans hplace, hends.trans hopen⟩
  · intro i y hy
    obtain ⟨x, hx, hends, -⟩ := hspan i y hy
    exact hends ▸ hs.ends i x hx
  · intro i y hy
    obtain ⟨x, hx, -, hsame⟩ := hspan i y hy
    exact hsame.named (hs.named i x hx)
  · intro i y hy hopen
    obtain ⟨x, hx, hends, hsame⟩ := hspan i y hy
    simp only [find_addEvent, hsame.place]
    exact hs.kept i x hx (hends.symm.trans hopen)

/-- **A move keeps the tables and the spans together.** -/
lemma Move.inv (h : Move ses clean s t) (hs : Inv s) : Inv t := by
  cases h with
  | start x hends _ hnamed => exact hs.start hends hnamed
  | startAt p x hopen hplace _ hnamed hfree =>
      exact hs.startAt hopen hplace hnamed fun h => hfree (Or.inr h)
  | closeAt p marks hmarks => exact hs.closeAt p hmarks
  | addEvent i code message => exact hs.addEvent i code message

/-- A span that is open after a move was open before, or is of the session. -/
lemma Move.of_span (h : Move ses clean s t) {i : SpanId} {y : Span} (hy : t.spans[i]? = some y)
    (hopen : y.Open) :
    (∃ x : Span, s.spans[i]? = some x ∧ x.Same y ∧ x.Open) ∨ y.sessionId = ses := by
  have hlt : ∀ {x : Span}, s.spans[i]? = some x →
      ∃ x, s.spans[i]? = some x ∧ x.Same y ∧ x.Open := by
    intro x hx
    obtain ⟨y', hy', hsame, hopen'⟩ := h.span hx
    obtain rfl := Option.some.inj (hy.symm.trans hy')
    exact ⟨x, hx, hsame, hopen' hopen⟩
  cases h with
  | start x hends _ _ =>
      rcases getElem?_concat_eq_some.mp hy with hx | ⟨-, rfl⟩
      · exact Or.inl (hlt hx)
      · exact absurd (hends.symm.trans hopen) one_ne_zero
  | startAt p x _ _ hses _ _ =>
      rw [Subscriber.spans_startAt] at hy
      rcases getElem?_concat_eq_some.mp hy with hx | ⟨-, rfl⟩
      · exact Or.inl (hlt hx)
      · exact Or.inr hses
  | closeAt p marks _ =>
      obtain ⟨x, hx, -⟩ := Option.map_eq_some_iff.mp (Subscriber.getElem?_closeAt i ▸ hy)
      exact Or.inl (hlt hx)
  | addEvent j code message =>
      obtain ⟨x, hx, -⟩ := Option.map_eq_some_iff.mp (getElem?_addEvent ▸ hy)
      exact Or.inl (hlt hx)

/-- What is lost stays so. -/
lemma Move.lost (h : Move ses clean s t) {i : SpanId} (hi : Lost s i) : Lost t i := by
  obtain ⟨⟨x, hx, hopen⟩, hfind⟩ := hi
  cases h with
  | start z _ _ _ =>
      refine ⟨⟨x, getElem?_concat_eq_some.mpr (Or.inl hx), hopen⟩, fun p => ?_⟩
      rw [Subscriber.find_start]
      exact hfind p
  | startAt p z _ _ _ _ _ =>
      have hlt := (List.getElem?_eq_some_iff.mp hx).1
      rw [Lost, Subscriber.spans_startAt]
      refine ⟨⟨x, getElem?_concat_eq_some.mpr (Or.inl hx), hopen⟩, fun q => ?_⟩
      rw [Subscriber.find_startAt]
      split_ifs
      · exact fun heq => hlt.ne' (Option.some.inj heq)
      · exact hfind q
  | closeAt p marks _ =>
      refine ⟨⟨x, ?_, hopen⟩, fun q => ?_⟩
      · rw [Subscriber.getElem?_closeAt, hx, Option.map_some, if_neg (hfind p)]
      · rw [Subscriber.find_closeAt]
        split_ifs
        · exact fun h => by cases h
        · exact hfind q
  | addEvent j code message =>
      obtain ⟨y, hy, -, -⟩ := (@Move.addEvent none True s j code message).span hx
      refine ⟨⟨y, hy, ?_⟩, fun p => ?_⟩
      · obtain ⟨x', hx', rfl⟩ := Option.map_eq_some_iff.mp (getElem?_addEvent ▸ hy)
        obtain rfl := Option.some.inj (hx.symm.trans hx')
        split_ifs <;> exact hopen
      · rw [find_addEvent]
        exact hfind p

/-- A clean move loses nothing. -/
lemma Move.of_lost (h : Move ses clean s t) (hclean : clean) {i : SpanId} (hi : Lost t i) :
    Lost s i := by
  obtain ⟨⟨y, hy, hopen⟩, hfind⟩ := hi
  cases h with
  | start z hends _ _ =>
      simp only [Subscriber.find_start] at hfind
      rcases getElem?_concat_eq_some.mp hy with hx | ⟨-, rfl⟩
      · exact ⟨⟨y, hx, hopen⟩, hfind⟩
      · exact absurd (hends.symm.trans hopen) one_ne_zero
  | startAt p z _ _ _ _ hfree =>
      simp only [Subscriber.find_startAt] at hfind
      rw [Subscriber.spans_startAt] at hy
      rcases getElem?_concat_eq_some.mp hy with hx | ⟨rfl, -⟩
      · refine ⟨⟨y, hx, hopen⟩, fun q hq => ?_⟩
        by_cases hqp : q = p
        · rw [hqp, hfree (Or.inl hclean)] at hq
          cases hq
        · exact hfind q (by rw [if_neg hqp, hq])
      · exact absurd (if_pos rfl) (hfind p)
  | closeAt p marks _ =>
      simp only [Subscriber.find_closeAt] at hfind
      obtain ⟨x, hx, rfl⟩ := Option.map_eq_some_iff.mp (Subscriber.getElem?_closeAt i ▸ hy)
      split_ifs at hopen with hp
      · exact absurd hopen (Nat.succ_ne_zero _)
      · refine ⟨⟨x, hx, hopen⟩, fun q hq => hfind q ?_⟩
        have hne : q ≠ p := by
          rintro rfl
          exact hp hq
        rw [if_neg hne, hq]
  | addEvent j code message =>
      obtain ⟨x, hx, rfl⟩ := Option.map_eq_some_iff.mp (getElem?_addEvent ▸ hy)
      refine ⟨⟨x, hx, ?_⟩, fun p => ?_⟩
      · split_ifs at hopen <;> exact hopen
      · intro hp
        exact hfind p (find_addEvent.trans hp)

/-! ### Any number of moves -/

lemma Moves.inv (h : Moves ses clean s t) (hs : Inv s) : Inv t := by
  induction h with
  | refl => exact hs
  | tail _ hmove ih => exact hmove.inv ih

lemma Moves.span (h : Moves ses clean s t) {i : SpanId} {x : Span} (hx : s.spans[i]? = some x) :
    ∃ y : Span, t.spans[i]? = some y ∧ x.Same y ∧ (y.Open → x.Open) := by
  induction h with
  | refl => exact ⟨x, hx, Span.Same.refl x, id⟩
  | tail _ hmove ih =>
      obtain ⟨y, hy, hsame, hopen⟩ := ih
      obtain ⟨z, hz, hsame', hopen'⟩ := hmove.span hy
      exact ⟨z, hz, hsame.trans hsame', fun h => hopen (hopen' h)⟩

lemma Moves.lost (h : Moves ses clean s t) {i : SpanId} (hi : Lost s i) : Lost t i := by
  induction h with
  | refl => exact hi
  | tail _ hmove ih => exact hmove.lost ih

lemma Moves.of_lost (h : Moves ses clean s t) (hclean : clean) {i : SpanId} (hi : Lost t i) :
    Lost s i := by
  induction h with
  | refl => exact hi
  | tail _ hmove ih => exact ih (hmove.of_lost hclean hi)

/-- No span of the session is open. -/
def Quiet (s : Subscriber) (sid : String) : Prop :=
  ∀ x ∈ s.spans, x.sessionId = some sid → ¬x.Open

lemma Moves.quiet (h : Moves ses clean s t) {sid : String} (hses : ses ≠ some sid)
    (hs : Quiet s sid) : Quiet t sid := by
  induction h with
  | refl => exact hs
  | tail _ hmove ih =>
      intro y hy hsid hopen
      obtain ⟨i, hi⟩ := List.mem_iff_getElem?.mp hy
      rcases hmove.of_span hi hopen with ⟨x, hx, hsame, hopen'⟩ | hses'
      · exact ih x (List.mem_iff_getElem?.mpr ⟨i, hx⟩) (hsame.sessionId.symm.trans hsid) hopen'
      · exact hses (hses'.symm.trans hsid)

end Moves

end GgRelay.Spans
