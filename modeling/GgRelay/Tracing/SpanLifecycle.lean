import GgRelay.Tracing.Spans

/-!
The lifecycle of the spans, over any sequence of events.

* `handle_moves`: a handler makes moves, and opens spans of no session but that of the event;
* `toolSession_after`: what stands in the table of the tools, as the events tell it;
* `parent_of_started`, `quiet_terminate`, `lost_of_reuse`: the parents, what a terminal event
  leaves, and what a reused id does;
* `lifecycle_iff` says which sequences meet the lifecycle, `reused_request_leaks` is one that does
  not.
-/

namespace GgRelay.Spans

variable {s t : Subscriber} {ses : Option String} {clean : Prop}

/-! ### The handlers are made of moves -/

lemma safe_nil : Span.Safe [] := fun _ _ => List.not_mem_nil

lemma Span.Safe.append {marks marks' : List (String × String)} (h : Span.Safe marks)
    (h' : Span.Safe marks') : Span.Safe (marks ++ marks') := by
  intro k hk hmem
  rw [List.map_append, List.mem_append] at hmem
  exact hmem.elim (h k hk) (h' k hk)

lemma safe_reasonMarks (reason : Option String) : Span.Safe (reasonMarks reason) := by
  rw [reasonMarks]
  split
  · simp [Span.Safe, Span.identity, marked]
  · exact safe_nil

lemma safe_endStatus (toState : String) : Span.Safe (marked "end_status" toState) := by
  simp [Span.Safe, Span.identity, marked]

lemma closeAt_moves (p : Place) {marks : List (String × String)} (h : Span.Safe marks) :
    Moves ses clean s (s.closeAt p marks) := .single (.closeAt p marks h)

lemma named_session (name : String) (parent : Option SpanId) (sid : String) :
    Span.Named ⟨name, parent, sessionAttributes sid, [], 0⟩ := ⟨sid, rfl, rfl⟩

lemma openRoot_moves (sid : String) : Moves (some sid) clean s (openRoot s sid) := by
  rw [openRoot]
  split_ifs with h
  · exact .single (.startAt _ _ rfl rfl rfl (named_session _ _ _) fun _ => h)
  · exact .refl

lemma openRun_moves (sid : String) : Moves (some sid) clean s (openRun s sid) := by
  rw [openRun]
  split_ifs with h
  · exact .single (.startAt _ _ rfl rfl rfl (named_session _ _ _) fun _ => h)
  · exact .refl

lemma endTools_moves (sid : String) : Moves ses clean s (endTools s sid) := by
  have hmarks : Span.Safe [("gg_relay.tool_status", "unresolved")] := by
    simp [Span.Safe, Span.identity]
  have hfold : ∀ (es : List ((_ : String) × SpanId)) (t : Subscriber), Moves ses clean s t →
      Moves ses clean s (es.foldl (endTool sid) t) := by
    intro es
    induction es with
    | nil => exact fun t h => h
    | cons e es ih =>
        intro t h
        refine ih _ ?_
        rw [endTool]
        split_ifs
        · exact h.trans (closeAt_moves _ hmarks)
        · exact h
  exact hfold _ s .refl

lemma finalize_moves (sid toState : String) (reason : Option String) :
    Moves ses clean s (finalize s sid toState reason) := by
  rw [finalize]
  split
  · refine .single (.start _ rfl ?_ ?_)
    · rw [Span.place_close (safe_reasonMarks reason)]
      rfl
    · exact (Span.same_close (safe_reasonMarks reason)).named ⟨sid, rfl, rfl⟩
  · exact .refl

lemma terminate_moves (sid toState : String) (reason : Option String) :
    Moves ses clean s (terminate s sid toState reason) := by
  have hmarks := (safe_endStatus toState).append (safe_reasonMarks reason)
  exact (((endTools_moves sid).trans (closeAt_moves _ hmarks)).trans
    (finalize_moves sid toState reason)).trans (closeAt_moves _ hmarks)

lemma onError_moves (sid code message : String) :
    Moves ses clean s (onError s sid code message) := by
  rw [onError]
  split
  · exact .single (.addEvent _ _ _)
  · exact .refl

lemma onLegacyFrame_moves (sid type : Option String) (code message : String) :
    Moves ses clean s (onLegacyFrame s sid type code message) := by
  unfold onLegacyFrame
  split
  · exact onError_moves _ _ _
  · exact .refl

lemma onToolResult_moves (reqId : String) (ok : Bool) (error : Option String) :
    Moves ses clean s (onToolResult s reqId ok error) := by
  refine closeAt_moves _ ?_
  cases error.filter (· ≠ "") <;> simp [Span.Safe, Span.identity]

/-- The event does not start a tool span at a place that is taken. -/
def Free (s : Subscriber) (ev : Event) : Prop :=
  ∀ sid reqId tool, ev = .toolRequested sid reqId tool → reqId ≠ "" → s.find (.tool reqId) = none

/-- **A handler makes moves**, which open spans of the session only that the event names. -/
lemma handle_moves (ev : Event) : Moves ev.starts (Free s ev) s (handle s ev) := by
  cases ev with
  | stateChanged sid toState reason =>
      rw [handle, onState]
      split_ifs with hempty hrunning hpaused hterminal
      · exact .refl
      · rw [not_or] at hempty
        rw [Event.starts, if_pos ⟨hempty.1, hrunning⟩]
        exact (openRoot_moves sid).trans (openRun_moves sid)
      · exact closeAt_moves _ (safe_reasonMarks _)
      · exact terminate_moves sid toState reason
      · exact .refl
  | toolRequested sid reqId tool =>
      rw [handle, onToolRequest]
      split_ifs with hempty
      · exact .refl
      · rw [Event.starts, if_pos hempty]
        refine .single (.startAt _ _ rfl rfl rfl ⟨sid, rfl, rfl⟩ fun h => ?_)
        rcases h with hfree | htool
        · exact hfree sid reqId tool rfl hempty
        · exact absurd rfl (htool reqId)
  | toolResolved reqId ok error => exact onToolResult_moves reqId ok error
  | installError sid code message => exact onError_moves sid code message
  | frame sid type code message => exact onLegacyFrame_moves sid type code message

lemma closeAll_moves (place : String → Place) (keys : List String) :
    Moves ses clean s (closeAll s place keys) := by
  rw [closeAll]
  induction keys generalizing s with
  | nil => exact .refl
  | cons k keys ih => exact (closeAt_moves (place k) safe_nil).trans ih

lemma exit_moves : Moves ses clean s (exit s) :=
  ((closeAll_moves .tool _).trans (closeAll_moves .run _)).trans (closeAll_moves .root _)

/-! ### The tables after a handler -/

lemma find_closeAll (place : String → Place) (keys : List String) (q : Place) :
    (closeAll s place keys).find q = if ∃ k ∈ keys, q = place k then none else s.find q := by
  rw [closeAll]
  induction keys generalizing s with
  | nil => simp
  | cons k keys ih =>
      rw [List.foldl_cons, ih, Subscriber.find_closeAt]
      by_cases hk : q = place k <;> simp [hk]

/-- The clean-up empties the tables. -/
lemma find_exit (q : Place) : (exit s).find q = none := by
  cases q with
  | root sid =>
      simp only [exit]
      rw [find_closeAll, ite_eq_left_iff]
      exact fun h => AList.lookup_eq_none.mpr fun hmem => h ⟨sid, AList.mem_keys.mpr hmem, rfl⟩
  | run sid =>
      simp only [exit]
      rw [find_closeAll, if_neg (by simp), find_closeAll, ite_eq_left_iff]
      exact fun h => AList.lookup_eq_none.mpr fun hmem => h ⟨sid, AList.mem_keys.mpr hmem, rfl⟩
  | tool reqId =>
      simp only [exit]
      rw [find_closeAll, if_neg (by simp), find_closeAll, if_neg (by simp), find_closeAll,
        ite_eq_left_iff]
      exact fun h => AList.lookup_eq_none.mpr fun hmem => h ⟨reqId, AList.mem_keys.mpr hmem, rfl⟩

lemma ofSession_closeAt {p : Place} {marks : List (String × String)} (h : Span.Safe marks)
    (sid : String) (i : SpanId) : ofSession (s.closeAt p marks) sid i = ofSession s sid i := by
  rw [ofSession, ofSession, Subscriber.getElem?_closeAt, Option.any_map]
  congr 1
  funext x
  split_ifs
  · rw [Span.lookup_close (h _ (by decide)), Span.lookup_close (h _ (by decide))]
  · rfl

/-- The tool spans of the session are gone. -/
lemma find_endTools (sid : String) (q : Place) :
    (endTools s sid).find q
      = if ∃ e ∈ s.tools.entries, q = .tool e.1 ∧ ofSession s sid e.2 then none
        else s.find q := by
  have hmarks : Span.Safe [("gg_relay.tool_status", "unresolved")] := by
    simp [Span.Safe, Span.identity]
  have hfold : ∀ (es : List ((_ : String) × SpanId)) (t : Subscriber),
      (∀ i, ofSession t sid i = ofSession s sid i) →
      (es.foldl (endTool sid) t).find q
        = if ∃ e ∈ es, q = .tool e.1 ∧ ofSession s sid e.2 then none else t.find q := by
    intro es
    induction es with
    | nil => simp
    | cons e es ih =>
        intro t ht
        rw [List.foldl_cons]
        simp only [List.exists_mem_cons_iff]
        by_cases he : ofSession s sid e.2
        · have hstep : endTool sid t e
              = t.closeAt (.tool e.1) [("gg_relay.tool_status", "unresolved")] := if_pos (ht _ ▸ he)
          rw [hstep, ih _ fun i => (ofSession_closeAt hmarks sid i).trans (ht i),
            Subscriber.find_closeAt]
          by_cases hq : q = .tool e.1
          · rw [if_pos hq, ite_self, if_pos (Or.inl ⟨hq, he⟩)]
          · rw [if_neg hq]
            exact if_congr (or_iff_right fun h => hq h.1).symm rfl rfl
        · have hstep : endTool sid t e = t := if_neg (ht _ ▸ he)
          rw [hstep, ih t ht]
          exact if_congr (or_iff_right fun h => he h.2).symm rfl rfl
  exact hfold _ s fun _ => rfl

lemma find_endTools_tool (sid reqId : String) :
    (endTools s sid).find (.tool reqId)
      = (s.find (.tool reqId)).filter fun i => !ofSession s sid i := by
  have hiff : (∃ e ∈ s.tools.entries, Place.tool reqId = .tool e.1 ∧ ofSession s sid e.2) ↔
      ∃ i, s.find (.tool reqId) = some i ∧ ofSession s sid i := by
    constructor
    · rintro ⟨⟨reqId', i⟩, he, hplace, hof⟩
      obtain rfl := Place.tool.inj hplace
      exact ⟨i, AList.mem_lookup_iff.mpr he, hof⟩
    · rintro ⟨i, hi, hof⟩
      exact ⟨⟨reqId, i⟩, AList.mem_lookup_iff.mp hi, rfl, hof⟩
  rw [find_endTools]
  simp only [hiff]
  cases hfind : s.find (.tool reqId) with
  | none => simp
  | some i => by_cases hof : ofSession s sid i <;> simp [hof, Option.filter]

lemma find_finalize (sid toState : String) (reason : Option String) (q : Place) :
    (finalize s sid toState reason).find q = s.find q := by
  rw [finalize]
  split
  · exact Subscriber.find_start
  · rfl

/-- **What a terminal event leaves.** -/
lemma find_terminate (sid toState : String) (reason : Option String) (q : Place) :
    (terminate s sid toState reason).find q
      = if q = .root sid ∨ q = .run sid then none else (endTools s sid).find q := by
  simp only [terminate]
  rw [Subscriber.find_closeAt, find_finalize, Subscriber.find_closeAt]
  by_cases hroot : q = .root sid
  · rw [if_pos hroot, if_pos (Or.inl hroot)]
  · simp only [hroot, if_false, false_or]

/-! ### The tool requests that wait -/

/-- The session of the tool span under an id. -/
def toolSession (s : Subscriber) (reqId : String) : Option String :=
  (s.find (.tool reqId)).bind fun i => s.spans[i]?.bind Span.sessionId

lemma Inv.toolSession_eq_none (hs : Inv s) {reqId : String} :
    toolSession s reqId = none ↔ s.find (.tool reqId) = none := by
  rw [toolSession]
  cases hfind : s.find (.tool reqId) with
  | none => simp
  | some i =>
      obtain ⟨x, hx, -⟩ := hs.find _ i hfind
      obtain ⟨sid, hsid, -⟩ := hs.named i x hx
      simp [hx, hsid]

/-- A tool span of the session is one whose session it is. -/
lemma Inv.ofSession_iff (hs : Inv s) {i : SpanId} {x : Span} (hx : s.spans[i]? = some x)
    (sid : String) : ofSession s sid i ↔ x.sessionId = some sid := by
  obtain ⟨sid', hsid, hdouble⟩ := hs.named i x hx
  rw [ofSession, hx, Option.any_some, hdouble]
  change (decide (x.sessionId = some sid) || decide (some sid' = some sid)) = true ↔ _
  rw [hsid]
  simp

/-- A move that leaves the place leaves the session. -/
lemma Moves.toolSession (h : Moves ses clean s t) (hs : Inv s) {reqId : String}
    (hfind : t.find (.tool reqId) = s.find (.tool reqId)) :
    toolSession t reqId = toolSession s reqId := by
  rw [Spans.toolSession, Spans.toolSession, hfind]
  cases hi : s.find (.tool reqId) with
  | none => rfl
  | some i =>
      obtain ⟨x, hx, -⟩ := hs.find _ i hi
      obtain ⟨y, hy, hsame, -⟩ := h.span hx
      rw [Option.bind_some, Option.bind_some, hx, hy, Option.bind_some, Option.bind_some,
        hsame.sessionId]

lemma find_openOrResumeRun_tool (sid reqId : String) :
    (openOrResumeRun s sid).find (.tool reqId) = s.find (.tool reqId) := by
  rw [openOrResumeRun, openRun, openRoot]
  split_ifs <;> simp [Subscriber.find_startAt]

lemma find_onError (sid code message : String) (q : Place) :
    (onError s sid code message).find q = s.find q := by
  rw [onError]
  split
  · exact find_addEvent
  · rfl

lemma find_onLegacyFrame (sid type : Option String) (code message : String) (q : Place) :
    (onLegacyFrame s sid type code message).find q = s.find q := by
  unfold onLegacyFrame
  split
  · exact find_onError _ _ _ _
  · rfl

lemma toolSession_terminate (hs : Inv s) (sid toState : String) (reason : Option String)
    (reqId : String) :
    toolSession (terminate s sid toState reason) reqId
      = if toolSession s reqId = some sid then none else toolSession s reqId := by
  have hfind : (terminate s sid toState reason).find (.tool reqId)
      = (s.find (.tool reqId)).filter fun i => !ofSession s sid i := by
    rw [find_terminate, if_neg (by simp), find_endTools_tool]
  cases hi : s.find (.tool reqId) with
  | none =>
      have hnone := hs.toolSession_eq_none.mpr hi
      rw [hnone, if_neg (by simp), toolSession, hfind, hi]
      rfl
  | some i =>
      obtain ⟨x, hx, -⟩ := hs.find _ i hi
      have hsession : toolSession s reqId = x.sessionId := by
        rw [toolSession, hi, Option.bind_some, hx, Option.bind_some]
      rw [hi] at hfind
      by_cases hof : ofSession s sid i
      · rw [if_pos (hsession.trans ((hs.ofSession_iff hx sid).mp hof)), toolSession, hfind]
        simp [Option.filter, hof]
      · rw [if_neg fun h => hof ((hs.ofSession_iff hx sid).mpr (hsession.symm.trans h))]
        refine (@terminate_moves s none True sid toState reason).toolSession hs ?_
        rw [hfind, hi]
        simp [Option.filter, hof]

lemma pendingStep_stateChanged (reqId sid toState : String) (reason waiting : Option String) :
    pendingStep reqId waiting (.stateChanged sid toState reason)
      = if (sid ≠ "" ∧ toState ∈ terminalStates) ∧ waiting = some sid then none else waiting := by
  by_cases h : sid ≠ "" ∧ toState ∈ terminalStates
  · have hterminates : (Event.stateChanged sid toState reason).terminates = some sid := if_pos h
    simp only [pendingStep, hterminates, ne_eq, reduceCtorEq, not_false_eq_true, true_and, h,
      and_self, eq_comm]
  · have hterminates : (Event.stateChanged sid toState reason).terminates = none := if_neg h
    simp only [pendingStep, hterminates, ne_eq, not_true_eq_false, false_and, if_false, h]

lemma handle_terminal {sid toState : String} (reason : Option String)
    (h : sid ≠ "" ∧ toState ∈ terminalStates) :
    handle s (.stateChanged sid toState reason) = terminate s sid toState reason := by
  have hstate : toState ≠ "" ∧ toState ≠ "running" ∧ toState ≠ "paused" := by
    have hall : ∀ st ∈ terminalStates, st ≠ "" ∧ st ≠ "running" ∧ st ≠ "paused" := by decide
    exact hall _ h.2
  rw [handle, onState, if_neg (not_or.mpr ⟨h.1, hstate.1⟩), if_neg hstate.2.1, if_neg hstate.2.2,
    if_pos h.2]

/-- **What waits after an event**, as the events tell it. -/
lemma toolSession_handle (hs : Inv s) (ev : Event) (reqId : String) :
    toolSession (handle s ev) reqId = pendingStep reqId (toolSession s reqId) ev := by
  have hkeep : (handle s ev).find (.tool reqId) = s.find (.tool reqId) →
      toolSession (handle s ev) reqId = toolSession s reqId := (handle_moves ev).toolSession hs
  cases ev with
  | stateChanged sid toState reason =>
      rw [pendingStep_stateChanged]
      by_cases h : sid ≠ "" ∧ toState ∈ terminalStates
      · rw [handle_terminal reason h, toolSession_terminate hs]
        simp only [h, ne_eq, not_false_eq_true, and_self, true_and]
      · rw [if_neg fun h' => h h'.1]
        refine hkeep ?_
        rw [handle, onState]
        split_ifs with hempty hrunning hpaused hterminal
        · rfl
        · exact find_openOrResumeRun_tool _ _
        · rw [endRun, Subscriber.find_closeAt, if_neg (by simp)]
        · exact absurd ⟨fun hsid => hempty (Or.inl hsid), hterminal⟩ h
        · rfl
  | toolRequested sid reqId' tool =>
      rw [pendingStep]
      by_cases hempty : reqId' = ""
      · rw [if_neg (by simp [hempty])]
        exact hkeep (by rw [handle, onToolRequest, if_pos hempty])
      by_cases hreq : reqId' = reqId
      · subst hreq
        rw [if_pos ⟨hempty, rfl⟩, handle, onToolRequest, if_neg hempty, toolSession,
          Subscriber.find_startAt, if_pos rfl, Option.bind_some, Subscriber.spans_startAt]
        simp [Span.sessionId, sessionAttributes]
      · rw [if_neg fun h => hreq h.2]
        refine hkeep ?_
        rw [handle, onToolRequest, if_neg hempty, Subscriber.find_startAt,
          if_neg fun h => hreq (Place.tool.inj h).symm]
  | toolResolved reqId' ok error =>
      rw [pendingStep]
      by_cases hreq : reqId' = reqId
      · rw [if_pos hreq, handle, onToolResult, toolSession, Subscriber.find_closeAt,
          if_pos (by rw [hreq]), Option.bind_none]
      · rw [if_neg hreq]
        refine hkeep ?_
        rw [handle, onToolResult, Subscriber.find_closeAt,
          if_neg fun h => hreq (Place.tool.inj h).symm]
  | installError sid code message => exact hkeep (find_onError _ _ _ _)
  | frame sid type code message => exact hkeep (find_onLegacyFrame _ _ _ _ _)

/-! ### The parents -/

lemma names_closeAt (p : Place) (marks : List (String × String)) :
    (s.closeAt p marks).spans.map Span.name = s.spans.map Span.name := by
  refine List.ext_getElem? fun i => ?_
  rw [List.getElem?_map, List.getElem?_map, Subscriber.getElem?_closeAt, Option.map_map]
  congr 1
  funext x
  simp only [Function.comp]
  split_ifs <;> rfl

lemma names_endTools (sid : String) :
    (endTools s sid).spans.map Span.name = s.spans.map Span.name := by
  have hfold : ∀ (es : List ((_ : String) × SpanId)) (t : Subscriber),
      (es.foldl (endTool sid) t).spans.map Span.name = t.spans.map Span.name := by
    intro es
    induction es with
    | nil => exact fun _ => rfl
    | cons e es ih =>
        intro t
        rw [List.foldl_cons, ih, endTool]
        split_ifs
        · exact names_closeAt _ _
        · rfl
  exact hfold _ s

/-- What a terminal event starts has the name of neither a run nor a tool. -/
lemma names_terminate (sid toState : String) (reason : Option String) :
    ∃ rest : List String, (terminate s sid toState reason).spans.map Span.name
      = s.spans.map Span.name ++ rest ∧ ∀ name ∈ rest, name = "relay.session.finalize" := by
  simp only [terminate]
  rw [names_closeAt, finalize]
  split
  · refine ⟨["relay.session.finalize"], ?_, by simp⟩
    rw [Subscriber.spans_start, List.map_append, names_closeAt, names_endTools]
    rfl
  · exact ⟨[], by rw [names_closeAt, names_endTools, List.append_nil], by simp⟩

lemma names_onError (sid code message : String) :
    (onError s sid code message).spans.map Span.name = s.spans.map Span.name := by
  rw [onError]
  split
  · refine List.ext_getElem? fun i => ?_
    rw [List.getElem?_map, List.getElem?_map, getElem?_addEvent, Option.map_map]
    congr 1
    funext x
    simp only [Function.comp]
    split_ifs <;> rfl
  · rfl

/-- The spans that a handler starts. -/
def started (s : Subscriber) (ev : Event) : List Span := (handle s ev).spans.drop s.spans.length

/-- Where the names are those from before and some more, what was started has one of these. -/
lemma name_mem_of_started {ev : Event} {rest : List String}
    (h : (handle s ev).spans.map Span.name = s.spans.map Span.name ++ rest) {x : Span}
    (hx : x ∈ started s ev) : x.name ∈ rest := by
  have hmem := List.mem_map_of_mem (f := Span.name) hx
  rwa [started, List.map_drop, h, List.drop_left' (by simp)] at hmem

/-- An open root stands in the table. -/
lemma Inv.find_root (hs : Inv s) {y : Span} {sid : String} (hy : y ∈ s.spans) (hopen : y.Open)
    (hplace : y.place = some (.root sid)) : ∃ i, s.find (.root sid) = some i := by
  obtain ⟨i, hi⟩ := List.mem_iff_getElem?.mp hy
  rcases hs.kept i y hi hopen with ⟨reqId, htool⟩ | ⟨p, hp⟩
  · rw [hplace] at htool
    cases htool
  · obtain ⟨z, hz, hplace', -⟩ := hs.find p i hp
    obtain rfl := Option.some.inj (hi.symm.trans hz)
    obtain rfl := Option.some.inj (hplace.symm.trans hplace')
    exact ⟨i, hp⟩

lemma spans_openRoot (sid : String) :
    ∃ rest : List Span, (openRoot s sid).spans = s.spans ++ rest ∧
      ∀ x ∈ rest, x.name = "relay.session" := by
  rw [openRoot]
  split_ifs
  · exact ⟨_, Subscriber.spans_startAt, by simp⟩
  · exact ⟨[], (List.append_nil _).symm, by simp⟩

lemma spans_openRun (sid : String) :
    ∃ rest : List Span, (openRun s sid).spans = s.spans ++ rest ∧
      ∀ x ∈ rest, x.parent = s.find (.root sid) ∧ x.sessionId = some sid := by
  rw [openRun]
  split_ifs
  · refine ⟨_, Subscriber.spans_startAt, fun x hx => ?_⟩
    obtain rfl := List.mem_singleton.mp hx
    exact ⟨rfl, rfl⟩
  · exact ⟨[], (List.append_nil _).symm, by simp⟩

lemma find_openRoot (sid : String) : ∃ i, (openRoot s sid).find (.root sid) = some i := by
  rw [openRoot]
  split_ifs with h
  · exact ⟨_, by rw [Subscriber.find_startAt, if_pos rfl]⟩
  · exact Option.ne_none_iff_exists'.mp h

/-- A run that is started is a child of the root. -/
lemma parent_of_openOrResumeRun (hs : Inv s) {x : Span} {sid sid' : String}
    (hx : x ∈ (openOrResumeRun s sid').spans.drop s.spans.length) (hsid : x.sessionId = some sid)
    (hname : x.name ≠ "relay.session") : OwnParent (openOrResumeRun s sid') sid x := by
  obtain ⟨first, hfirst, hroot⟩ := @spans_openRoot s sid'
  obtain ⟨second, hsecond, hrun⟩ := @spans_openRun (openRoot s sid') sid'
  rw [openOrResumeRun, hsecond, hfirst, List.append_assoc, List.drop_left, List.mem_append] at hx
  rcases hx with hx | hx
  · exact absurd (hroot x hx) hname
  · obtain ⟨hparent, hsid'⟩ := hrun x hx
    obtain rfl := Option.some.inj (hsid'.symm.trans hsid)
    obtain ⟨i, hi⟩ := @find_openRoot s sid'
    obtain ⟨y, hy, hplace, hopen⟩ := (((@openRoot_moves s True sid').inv hs)).find _ i hi
    refine ⟨i, y, hparent.trans hi, ?_, hopen, Or.inl hplace⟩
    rw [openOrResumeRun, hsecond, List.getElem?_append_left (List.getElem?_eq_some_iff.mp hy).1, hy]

/-- **The parents**: a run or a tool span that is started while the root of the session is open. -/
lemma parent_of_started (hs : Inv s) {ev : Event} {x : Span} (hx : x ∈ started s ev) {sid : String}
    (hsid : x.sessionId = some sid)
    (hname : x.name = "relay.session.run" ∨ x.name = "relay.tool_call")
    (hroot : ∃ y ∈ (handle s ev).spans, y.Open ∧ y.place = some (.root sid)) :
    OwnParent (handle s ev) sid x := by
  have hother : ∀ rest : List String, (∀ name ∈ rest, name = "relay.session.finalize") →
      (handle s ev).spans.map Span.name ≠ s.spans.map Span.name ++ rest := by
    intro rest hrest hnames
    have hfinal := hrest _ (name_mem_of_started hnames hx)
    rcases hname with hname | hname <;> (rw [hname] at hfinal; simp at hfinal)
  have hsame : (handle s ev).spans.map Span.name ≠ s.spans.map Span.name := fun h =>
    hother [] (by simp) (by rw [h, List.append_nil])
  cases ev with
  | stateChanged sid' toState reason =>
      have hcases : handle s (.stateChanged sid' toState reason) = s ∨
          handle s (.stateChanged sid' toState reason) = openOrResumeRun s sid' ∨
          handle s (.stateChanged sid' toState reason) = endRun s sid' (some "paused") ∨
          handle s (.stateChanged sid' toState reason) = terminate s sid' toState reason := by
        rw [handle, onState]
        split_ifs <;> simp
      rcases hcases with h | h | h | h
      · exact absurd (by rw [h]) hsame
      · rw [started, h] at hx
        rw [h]
        refine parent_of_openOrResumeRun hs hx hsid ?_
        rcases hname with hname | hname <;> simp [hname]
      · exact absurd (by rw [h, endRun, names_closeAt]) hsame
      · obtain ⟨rest, hnames, hrest⟩ := @names_terminate s sid' toState reason
        exact absurd (h ▸ hnames) (hother rest hrest)
  | toolRequested sid' reqId tool =>
      by_cases hempty : reqId = ""
      · exact absurd (by rw [handle, onToolRequest, if_pos hempty]) hsame
      rw [started, handle, onToolRequest, if_neg hempty, Subscriber.spans_startAt, List.drop_left,
        List.mem_singleton] at hx
      rw [handle, onToolRequest, if_neg hempty, Subscriber.spans_startAt] at hroot
      obtain ⟨y, hy, hopen, hplace⟩ := hroot
      subst hx
      obtain rfl := Option.some.inj hsid
      have hroot : ∃ i, s.find (.root sid') = some i := by
        rcases List.mem_append.mp hy with hy | hy
        · exact hs.find_root hy hopen hplace
        · rw [List.mem_singleton.mp hy] at hplace
          cases hplace
      have hcurrent : ∃ i p, s.current sid' = some i ∧ s.find p = some i ∧
          (p = .root sid' ∨ p = .run sid') := by
        rw [Subscriber.current]
        cases hrun : s.find (.run sid') with
        | none =>
            obtain ⟨i, hi⟩ := hroot
            exact ⟨i, .root sid', by rw [Option.none_or, hi], hi, Or.inl rfl⟩
        | some i => exact ⟨i, .run sid', rfl, hrun, Or.inr rfl⟩
      obtain ⟨i, p, hparent, hi, hp⟩ := hcurrent
      obtain ⟨z, hz, hplace', hopen'⟩ := hs.find p i hi
      refine ⟨i, z, hparent, ?_, hopen', ?_⟩
      · rw [handle, onToolRequest, if_neg hempty, Subscriber.spans_startAt,
          List.getElem?_append_left (List.getElem?_eq_some_iff.mp hz).1, hz]
      · rcases hp with rfl | rfl
        · exact Or.inl hplace'
        · exact Or.inr hplace'
  | toolResolved reqId ok error => exact absurd (names_closeAt _ _) hsame
  | installError sid' code message => exact absurd (names_onError _ _ _) hsame
  | frame sid' type code message =>
      refine absurd ?_ hsame
      rw [handle]
      unfold onLegacyFrame
      split
      · exact names_onError _ _ _
      · rfl

/-! ### Runs -/

lemma after_concat (evs : List Event) (ev : Event) :
    after (evs ++ [ev]) = handle (after evs) ev := List.foldl_concat _ _ _ _

lemma inv_after (evs : List Event) : Inv (after evs) := by
  induction evs using List.reverseRecOn with
  | nil =>
      have hspan : ∀ (i : SpanId) (x : Span), (after []).spans[i]? ≠ some x := fun i x h => by
        simp [after] at h
      have hfind : ∀ p, (after []).find p = none := by
        intro p
        cases p <;> rfl
      exact ⟨fun p i h => absurd ((hfind p).symm.trans h) (by simp),
        fun i x h => absurd h (hspan i x), fun i x h => absurd h (hspan i x),
        fun i x h => absurd h (hspan i x)⟩
  | append_singleton evs ev ih =>
      rw [after_concat]
      exact (handle_moves ev).inv ih

/-- **The table of the tools is what the events tell.** -/
lemma toolSession_after (evs : List Event) (reqId : String) :
    toolSession (after evs) reqId = pending evs reqId := by
  induction evs using List.reverseRecOn with
  | nil => rfl
  | append_singleton evs ev ih =>
      rw [after_concat, toolSession_handle (inv_after evs), ih, pending, pending,
        List.foldl_concat]

lemma sessionId_of_place {x : Span} {sid : String}
    (h : x.place = some (.root sid) ∨ x.place = some (.run sid)) : x.sessionId = some sid := by
  rw [Span.place] at h
  split_ifs at h
  · simpa using h
  · simpa using h
  · simp at h
  · simp at h

/-- After a terminal event nothing of the session is open. -/
lemma quiet_terminate (hs : Inv s) (hlost : ∀ i, ¬Lost s i) (sid toState : String)
    (reason : Option String) : Quiet (terminate s sid toState reason) sid := by
  intro x hx hsid hopen
  have hmoves : Moves none True s (terminate s sid toState reason) := terminate_moves _ _ _
  obtain ⟨i, hi⟩ := List.mem_iff_getElem?.mp hx
  have hkept : ∃ p, (terminate s sid toState reason).find p = some i := by
    by_contra hnone
    exact hlost i (hmoves.of_lost trivial ⟨⟨x, hi, hopen⟩, fun p hp => hnone ⟨p, hp⟩⟩)
  obtain ⟨p, hp⟩ := hkept
  obtain ⟨y, hy, hplace, -⟩ := (hmoves.inv hs).find p i hp
  obtain rfl := Option.some.inj (hi.symm.trans hy)
  cases p with
  | root sid' =>
      obtain rfl := Option.some.inj ((sessionId_of_place (Or.inl hplace)).symm.trans hsid)
      rw [find_terminate, if_pos (Or.inl rfl)] at hp
      cases hp
  | run sid' =>
      obtain rfl := Option.some.inj ((sessionId_of_place (Or.inr hplace)).symm.trans hsid)
      rw [find_terminate, if_pos (Or.inr rfl)] at hp
      cases hp
  | tool reqId =>
      have hsession : toolSession (terminate s sid toState reason) reqId = some sid := by
        rw [toolSession, hp, Option.bind_some, hi, Option.bind_some, hsid]
      rw [toolSession_terminate hs] at hsession
      split_ifs at hsession with h
      exact h hsession

/-- A reused id: the span that stood there is lost. -/
lemma lost_of_reuse (hs : Inv s) {sid reqId tool : String} (hreq : reqId ≠ "") {i : SpanId}
    (hi : s.find (.tool reqId) = some i) : Lost (handle s (.toolRequested sid reqId tool)) i := by
  obtain ⟨x, hx, -, hopen⟩ := hs.find _ i hi
  have hlt := (List.getElem?_eq_some_iff.mp hx).1
  rw [handle, onToolRequest, if_neg hreq, Lost, Subscriber.spans_startAt]
  refine ⟨⟨x, getElem?_concat_eq_some.mpr (Or.inl hx), hopen⟩, fun q hq => ?_⟩
  rw [Subscriber.find_startAt] at hq
  split_ifs at hq with h
  · exact hlt.ne' (Option.some.inj hq)
  · exact h (hs.find_unique hq hi)

/-- What an event starts is open. -/
lemma open_of_starts (hs : Inv s) {ev : Event} {sid : String} (h : ev.starts = some sid) :
    ∃ x ∈ (handle s ev).spans, x.sessionId = some sid ∧ x.Open := by
  cases ev with
  | stateChanged sid' toState reason =>
      rw [Event.starts] at h
      split_ifs at h with hrunning
      obtain rfl := Option.some.inj h
      obtain ⟨hsid, rfl⟩ := hrunning
      have hfind : ∃ i, (openOrResumeRun s sid').find (.root sid') = some i := by
        obtain ⟨i, hi⟩ := @find_openRoot s sid'
        refine ⟨i, ?_⟩
        rw [openOrResumeRun, openRun]
        split_ifs
        · rw [Subscriber.find_startAt, if_neg (by simp), hi]
        · exact hi
      have hstate : handle s (.stateChanged sid' "running" reason) = openOrResumeRun s sid' := by
        rw [handle, onState, if_neg (by simp [hsid]), if_pos rfl]
      obtain ⟨i, hi⟩ := hfind
      obtain ⟨y, hy, hplace, hopen⟩ :=
        (hstate ▸ (handle_moves (.stateChanged sid' "running" reason)).inv hs : Inv _).find _ i hi
      exact ⟨y, hstate ▸ List.mem_iff_getElem?.mpr ⟨i, hy⟩, sessionId_of_place (Or.inl hplace),
        hopen⟩
  | toolRequested sid' reqId tool =>
      rw [Event.starts] at h
      split_ifs at h with hreq
      obtain rfl := Option.some.inj h
      rw [handle, onToolRequest, if_neg hreq, Subscriber.spans_startAt]
      exact ⟨_, List.mem_append_right _ (List.mem_singleton_self _), rfl, rfl⟩
  | toolResolved => cases h
  | installError => cases h
  | frame => cases h

lemma Orderly.of_init {evs before : List Event} (h : Orderly evs) (hbefore : before <+: evs) :
    Orderly before := fun _ _ hinit => h _ _ (hinit.trans hbefore)

lemma Orderly.free {evs : List Event} {ev : Event} (h : Orderly (evs ++ [ev])) :
    Free (after evs) ev := by
  intro sid reqId tool hev hreq
  rw [← (inv_after evs).toolSession_eq_none, toolSession_after]
  exact (h evs ev (List.prefix_refl _)).1 sid reqId tool hev hreq

/-- Nothing is lost. -/
lemma Orderly.not_lost {evs : List Event} (h : Orderly evs) (i : SpanId) : ¬Lost (after evs) i := by
  induction evs using List.reverseRecOn with
  | nil =>
      rintro ⟨⟨x, hx, -⟩, -⟩
      simp [after] at hx
  | append_singleton evs ev ih =>
      rw [after_concat]
      exact fun hi => ih (h.of_init (List.prefix_append _ _)) ((handle_moves ev).of_lost h.free hi)

/-- A session that has ended stays quiet. -/
lemma Orderly.quiet {evs : List Event} (h : Orderly evs) {sid : String}
    (hsid : Terminated evs sid) : Quiet (after evs) sid := by
  induction evs using List.reverseRecOn with
  | nil =>
      obtain ⟨ev, hev, -⟩ := hsid
      cases hev
  | append_singleton evs ev ih =>
      have hevs := h.of_init (List.prefix_append evs [ev])
      rw [after_concat]
      by_cases hbefore : Terminated evs sid
      · exact (handle_moves ev).quiet
          (fun hstarts => (h evs ev (List.prefix_refl _)).2 sid hstarts hbefore) (ih hevs hbefore)
      · obtain ⟨ev', hmem, hends⟩ := hsid
        have hlast : ev' = ev := by
          rcases List.mem_append.mp hmem with hmem | hmem
          · exact absurd ⟨ev', hmem, hends⟩ hbefore
          · exact List.mem_singleton.mp hmem
        subst hlast
        cases ev' with
        | stateChanged sid' toState reason =>
            rw [Event.terminates] at hends
            split_ifs at hends with hterminal
            obtain rfl := Option.some.inj hends
            rw [handle_terminal reason hterminal]
            exact quiet_terminate (inv_after evs) hevs.not_lost _ _ _
        | toolRequested => cases hends
        | toolResolved => cases hends
        | installError => cases hends
        | frame => cases hends

lemma lost_append {evs : List Event} {i : SpanId} (h : Lost (after evs) i) (rest : List Event) :
    Lost (after (evs ++ rest)) i := by
  induction rest using List.reverseRecOn with
  | nil => rwa [List.append_nil]
  | append_singleton rest ev ih =>
      rw [← List.append_assoc, after_concat]
      exact (handle_moves ev).lost ih

/-- The spans keep to the lifecycle exactly when no tool request reuses an id under which another
one still waits, and nothing is started of a session after its terminal event. -/
theorem lifecycle_iff (evs : List Event) : Lifecycle evs ↔ Orderly evs := by
  constructor
  · intro h before ev hinit
    constructor
    · rintro sid reqId tool rfl hreq
      by_contra hpending
      rw [← toolSession_after, (inv_after before).toolSession_eq_none] at hpending
      obtain ⟨i, hi⟩ := Option.ne_none_iff_exists'.mp hpending
      have hlost : Lost (handle (after before) (.toolRequested sid reqId tool)) i :=
        lost_of_reuse (inv_after before) hreq hi
      rw [← after_concat] at hlost
      obtain ⟨rest, rfl⟩ := hinit
      obtain ⟨⟨x, hx, hopen⟩, -⟩ := (@exit_moves _ none True).lost (lost_append hlost rest)
      have hended := h.ended x (List.mem_iff_getElem?.mpr ⟨i, hx⟩)
      exact absurd (hended.symm.trans hopen) one_ne_zero
    · intro sid hstarts hterminated
      obtain ⟨x, hx, hsid, hopen⟩ := open_of_starts (inv_after before) hstarts
      rw [← after_concat] at hx
      obtain ⟨ev', hev', hends⟩ := hterminated
      exact h.closed (before ++ [ev]) sid hinit ⟨ev', List.mem_append_left _ hev', hends⟩ x hx
        hsid hopen
  · intro h
    refine ⟨fun x hx => ?_, fun before ev hinit x hx sid hsid hname hroot => ?_,
      fun before sid hinit hterminated => (h.of_init hinit).quiet hterminated⟩
    · have hmoves : Moves none True (after evs) (exit (after evs)) := exit_moves
      obtain ⟨i, hi⟩ := List.mem_iff_getElem?.mp hx
      have hends := (hmoves.inv (inv_after evs)).ends i x hi
      have hclosed : ¬x.Open := fun hopen => h.not_lost i (hmoves.of_lost trivial
        ⟨⟨x, hi, hopen⟩, fun p hp => by rw [find_exit] at hp; cases hp⟩)
      have hne : x.ends ≠ 0 := hclosed
      omega
    · rw [after_concat] at hx hroot ⊢
      exact parent_of_started (inv_after before) hx hsid hname hroot

/-- Two requests with one id, and no result. -/
def reusedRequest : List Event :=
  [.stateChanged "s1" "running" none, .toolRequested "s1" "r1" "Bash",
    .toolRequested "s1" "r1" "Bash", .stateChanged "s1" "completed" none]

/-- The span of the first request is never ended. -/
theorem reused_request_leaks : ¬Lifecycle reusedRequest := by
  intro h
  have hends : ∃ x ∈ (exit (after reusedRequest)).spans, x.ends = 0 := by decide +kernel
  obtain ⟨x, hx, hzero⟩ := hends
  exact one_ne_zero ((h.ended x hx).symm.trans hzero)

end GgRelay.Spans
