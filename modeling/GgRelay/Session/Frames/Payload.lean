import GgRelay.Redaction.Engine

/-!
The event frames of the wire protocol (`session/transport/protocol.py`, `session/frames.py`) and
the typed events they are lifted to (`core/events.py`).

* `Frame` is a frame that a builder of `session/frames.py` makes, `Frame.dict` the mapping it is
  on the wire;
* `Builtins` stands for the conversions of the language, whose results on odd values are no
  concern of this development;
* `frameToEvent` is the dispatch table with its factories, which may raise.
-/

namespace GgRelay.Frames

/-- A dict with string keys. -/
abbrev Obj := List (String × Json)

/-- `d.get(k, default)`. -/
def getD (d : Obj) (k : String) (default : Json) : Json := (d.lookup k).getD default

/-- `d.get(k)`. -/
def get (d : Obj) (k : String) : Json := getD d k (.scalar .null)

/-- A string, if the value is one. -/
def asStr : Json → Option String
  | .str s => some s
  | _ => none

/-- A mapping, if the value is one. -/
def asMapping : Json → Option Obj
  | .mapping d => some d
  | _ => none

/-! ### Frames -/

/-- `_HOOK_EVENTS`. -/
inductive HookEvent where
  | preToolUse
  | postToolUse
  | userPromptSubmit
  | stop
  | subagentStop
  | preCompact
  deriving DecidableEq, Repr

/-- The name of the event. -/
def HookEvent.name : HookEvent → String
  | .preToolUse => "PreToolUse"
  | .postToolUse => "PostToolUse"
  | .userPromptSubmit => "UserPromptSubmit"
  | .stop => "Stop"
  | .subagentStop => "SubagentStop"
  | .preCompact => "PreCompact"

/-- `"hook." + _snake_event(name)`. -/
def HookEvent.type : HookEvent → String
  | .preToolUse => "hook.pre_tool_use"
  | .postToolUse => "hook.post_tool_use"
  | .userPromptSubmit => "hook.user_prompt_submit"
  | .stop => "hook.stop"
  | .subagentStop => "hook.subagent_stop"
  | .preCompact => "hook.pre_compact"

/-- What an `EventFrame` carries besides its envelope. -/
inductive Payload where
  | installDone (profileId : Option String) (modules : List String) (durationMs : ℤ)
      (installRoot : String)
  | installError (code message : String) (stderrTail : Option String)
  | msgChunk (data : Obj)
  | toolRequest (reqId tool : String) (args : Obj)
  | toolResult (reqId : String) (ok : Bool) (result : Option Obj) (error : Option String)
  | hook (event : HookEvent) (toolName toolUseId parentToolUseId sdkSessionId inputHash :
      Option String) (inputRedacted : Obj)
  | sessionEnd (status : String) (tokens : Option Obj) (costUsd : Option String)
  | error (code message : String) (traceback : Option String)
  | pong
  | pauseAck (reqId : String) (ok : Bool) (error : Option String)
  | resumeAck (reqId : String) (ok : Bool) (error : Option String)

/-- The `type` of the frame. -/
def Payload.type : Payload → String
  | .installDone .. => "install.done"
  | .installError .. => "install.error"
  | .msgChunk _ => "msg.chunk"
  | .toolRequest .. => "tool.request"
  | .toolResult .. => "tool.result"
  | .hook event .. => event.type
  | .sessionEnd .. => "session.end"
  | .error .. => "error"
  | .pong => "pong"
  | .pauseAck .. => "pause.ack"
  | .resumeAck .. => "resume.ack"

/-- A key that is left out when it has no value. -/
def optional (k : String) (v : Option Json) : Obj := (v.map fun v => (k, v)).toList

/-- The keys of the payload. -/
def Payload.fields : Payload → Obj
  | .installDone profileId modules durationMs installRoot =>
      [("profile_id", (profileId.map Json.str).getD (.scalar .null)),
        ("modules", .list (modules.map .str)), ("duration_ms", .scalar (.int durationMs)),
        ("install_root", .str installRoot)]
  | .installError code message stderrTail =>
      [("code", .str code), ("message", .str message)] ++
        optional "stderr_tail" (stderrTail.map .str)
  | .msgChunk data => [("data", .mapping data)]
  | .toolRequest reqId tool args =>
      [("req_id", .str reqId), ("tool", .str tool), ("args", .mapping args)]
  | .toolResult reqId ok result err =>
      [("req_id", .str reqId), ("ok", .scalar (.bool ok))] ++
        optional "result" (result.map .mapping) ++ optional "error" (err.map .str)
  | .hook event toolName toolUseId parentToolUseId sdkSessionId inputHash inputRedacted =>
      [("event_type", .str event.name), ("input_redacted", .mapping inputRedacted)] ++
        optional "tool_name" (toolName.map .str) ++ optional "tool_use_id" (toolUseId.map .str) ++
        optional "parent_tool_use_id" (parentToolUseId.map .str) ++
        optional "sdk_session_id" (sdkSessionId.map .str) ++
        optional "input_hash" (inputHash.map .str)
  | .sessionEnd status tokens costUsd =>
      [("status", .str status)] ++ optional "tokens" (tokens.map .mapping) ++
        optional "cost_usd" (costUsd.map fun r => .scalar (.other r))
  | .error code message traceback =>
      [("code", .str code), ("message", .str message)] ++
        optional "traceback" (traceback.map .str)
  | .pong => []
  | .pauseAck reqId ok err | .resumeAck reqId ok err =>
      [("req_id", .str reqId), ("ok", .scalar (.bool ok))] ++ optional "error" (err.map .str)

/-- An `EventFrame`: a payload in the envelope of `_envelope`. -/
structure Frame where
  seq : ℤ
  ts : String
  payload : Payload

/-- The frame on the wire. -/
def Frame.dict (f : Frame) : Obj :=
  [("v", .scalar (.int 1)), ("type", .str f.payload.type), ("seq", .scalar (.int f.seq)),
    ("ts", .str f.ts)] ++ f.payload.fields

/-- The frame is of this type: `frame.get("type") == t`. -/
def hasType (t : String) (frame : Obj) : Bool := asStr (get frame "type") = some t

@[simp] theorem get_type_dict (f : Frame) : get f.dict "type" = .str f.payload.type := rfl

@[simp] theorem getD_seq_dict (f : Frame) (j : Json) : getD f.dict "seq" j = .scalar (.int f.seq) :=
  rfl

@[simp] theorem hasType_dict {f : Frame} {t : String} :
    hasType t f.dict = decide (f.payload.type = t) := by
  simp [hasType, asStr]

/-! ### The conversions of the language -/

/-- What a conversion raises. -/
inductive PyError where
  | typeError
  | valueError
  | overflowError
  deriving DecidableEq, Repr

/-- The conversions of the language on JSON values, with what they do to values of their own
type, to `None` and to strings. -/
structure Builtins where
  /-- `bool(v)` -/
  bool : Json → Bool
  /-- `int(v)` -/
  int : Json → Except PyError ℤ
  /-- `float(v)`, by its representation -/
  float : Json → Except PyError String
  /-- `dict(v)` -/
  dict : Json → Except PyError Obj
  /-- `str(v)` -/
  str : Json → String
  /-- the representation is that of a float -/
  isFloat : String → Bool
  /-- `datetime.fromisoformat(s.replace("Z", "+00:00"))` -/
  fromisoformat : String → Option String
  bool_null : bool (.scalar .null) = false
  int_int : ∀ n, int (.scalar (.int n)) = .ok n
  int_null : int (.scalar .null) = .error .typeError
  int_str : ∀ s, int (.str s) ≠ .error .overflowError
  float_zero : float (.scalar (.other "0.0")) = .ok "0.0"
  dict_mapping : ∀ d, dict (.mapping d) = .ok d

namespace Builtins

/-- A `Builtins` that parses nothing: what is no number is no `int` and no `float`. -/
def plain : Builtins where
  bool
    | .scalar .null => false
    | .scalar (.bool b) => b
    | .scalar (.int n) => n ≠ 0
    | .scalar (.other r) => r ≠ "0.0"
    | .str s => s ≠ ""
    | .list vs | .tuple vs => !vs.isEmpty
    | .mapping d => !d.isEmpty
  int
    | .scalar (.int n) => .ok n
    | .scalar (.bool b) => .ok b.toNat
    | .str _ => .error .valueError
    | _ => .error .typeError
  float
    | .scalar (.other r) => .ok r
    | _ => .error .typeError
  dict
    | .mapping d => .ok d
    | _ => .error .typeError
  str
    | .str s => s
    | _ => ""
  isFloat _ := true
  fromisoformat s := some s
  bool_null := rfl
  int_int _ := rfl
  int_null := rfl
  int_str _ := nofun
  float_zero := rfl
  dict_mapping _ := rfl

variable (B : Builtins)

/-- `v or default`. -/
def or (v default : Json) : Json := if B.bool v then v else default

/-- `_safe_int`: two of the exceptions are caught. -/
def safeInt (v : Json) : Except PyError ℤ :=
  match B.int v with
  | .ok n => .ok n
  | .error .overflowError => .error .overflowError
  | .error _ => .ok 0

end Builtins

/-- `_safe_str`. -/
def safeStr (v : Json) (default : String) : String := (asStr v).getD default

/-- The members that a `for` goes through. -/
def iter : Json → Except PyError (List Json)
  | .scalar _ => .error .typeError
  | .str s => .ok (s.toList.map fun c => .str c.toString)
  | .list vs | .tuple vs => .ok vs
  | .mapping d => .ok (d.map fun kv => .str kv.1)

/-! ### Events -/

/-- `_trace_fields`. -/
structure TraceFields where
  seq : ℤ
  eventType : String
  toolName : Option String
  toolUseId : Option String
  parentToolUseId : Option String
  inputHash : Option String
  inputRedacted : Obj

/-- The `RelayEvent`s that frames are lifted to, with what the factories pass to them. -/
inductive RelayEvent where
  | sessionOutputChunk (sessionId : String) (seq : ℤ) (payload : Obj)
  | toolRequested (sessionId : String) (seq : ℤ) (reqId tool : String) (argsRedacted : Obj)
  | toolResolved (sessionId : String) (seq : ℤ) (reqId : String) (ok : Bool)
      (resultRedacted : Obj) (error : Option String)
  | toolInvocationStarted (sessionId : String) (trace : TraceFields)
  | toolInvocationFinished (sessionId : String) (trace : TraceFields)
  | subagentCompleted (sessionId : String) (trace : TraceFields)
  | installDone (sessionId : String) (profileId : Option String) (modules : List String)
      (durationMs : ℤ)
  | installError (sessionId : String) (seq : ℤ) (code message : String)
      (traceback : Option String)
  | sessionCompleted (sessionId : String) (status : String) (tokens : List (String × ℤ))
      (costUsd : String)
  | heartbeat (sessionId : String) (runtimeId : String)

section Factories

variable (B : Builtins) (sid : String) (payload : Obj)

/-- `_from_msg_chunk`. -/
def fromMsgChunk : Except PyError RelayEvent := do
  let seq ← B.safeInt (get payload "seq")
  return .sessionOutputChunk sid seq payload

/-- `_from_tool_request`. -/
def fromToolRequest : Except PyError RelayEvent := do
  let seq ← B.safeInt (get payload "seq")
  let args ← B.dict (B.or (get payload "args") (.mapping []))
  return .toolRequested sid seq (safeStr (get payload "req_id") "")
    (safeStr (get payload "tool") "") args

/-- `_from_tool_result`. -/
def fromToolResult : Except PyError RelayEvent := do
  let seq ← B.safeInt (get payload "seq")
  let result ← B.dict (B.or (get payload "result") (.mapping []))
  return .toolResolved sid seq (safeStr (get payload "req_id") "")
    (B.bool (getD payload "ok" (.scalar (.bool true)))) result (asStr (get payload "error"))

/-- `_trace_fields`. -/
def traceFields : Except PyError TraceFields := do
  let seq ← B.safeInt (get payload "seq")
  return {
    seq := seq
    eventType := safeStr (get payload "event_type") (safeStr (get payload "type") "")
    toolName := asStr (get payload "tool_name")
    toolUseId := asStr (get payload "tool_use_id")
    parentToolUseId := asStr (get payload "parent_tool_use_id")
    inputHash := asStr (get payload "input_hash")
    inputRedacted := (asMapping (get payload "input_redacted")).getD [] }

/-- `_from_hook_pre_tool_use`, `_from_hook_post_tool_use` and `_from_hook_subagent_stop`. -/
def fromHook (event : String → TraceFields → RelayEvent) : Except PyError RelayEvent :=
  (traceFields B payload).map (event sid)

/-- `_from_install_done`. -/
def fromInstallDone : Except PyError RelayEvent := do
  let modules ← iter (B.or (get payload "modules") (.tuple []))
  let durationMs ← B.safeInt (get payload "duration_ms")
  return .installDone sid (asStr (get payload "profile_id")) (modules.filterMap asStr) durationMs

/-- `_from_install_error`. -/
def fromInstallError : Except PyError RelayEvent := do
  let seq ← B.safeInt (get payload "seq")
  return .installError sid seq (safeStr (get payload "code") "install_failed")
    (safeStr (get payload "message") "") none

/-- `_from_error_frame`. -/
def fromErrorFrame : Except PyError RelayEvent := do
  let seq ← B.safeInt (get payload "seq")
  return .installError sid seq (safeStr (get payload "code") "runtime_error")
    (safeStr (get payload "message") "") (asStr (get payload "traceback"))

/-- The status a `session.end` stands for. -/
def endStatus (statusRaw : String) : String :=
  if statusRaw = "cancelled" then "cancelled"
  else if statusRaw = "failed" ∨ statusRaw = "crashed" then "failed"
  else "completed"

/-- `_from_session_end`. -/
def fromSessionEnd : Except PyError RelayEvent := do
  let tokensRaw := B.or (get payload "tokens") (.mapping [])
  let tokens ← ((asMapping tokensRaw).getD []).mapM fun kv =>
    (B.safeInt kv.2).map fun n => (kv.1, n)
  let costUsd ← B.float (B.or (get payload "cost_usd") (.scalar (.other "0.0")))
  return .sessionCompleted sid (endStatus (safeStr (get payload "status") "completed")) tokens
    costUsd

/-- `_from_pong`. -/
def fromPong : Except PyError RelayEvent :=
  return .heartbeat sid (safeStr (get payload "runtime_id") "")

/-- `_FRAME_TO_EVENT`. -/
def factory : String → Option (Except PyError RelayEvent)
  | "msg.chunk" => some (fromMsgChunk B sid payload)
  | "tool.request" => some (fromToolRequest B sid payload)
  | "tool.result" => some (fromToolResult B sid payload)
  | "hook.pre_tool_use" => some (fromHook B sid payload .toolInvocationStarted)
  | "hook.post_tool_use" => some (fromHook B sid payload .toolInvocationFinished)
  | "hook.subagent_stop" => some (fromHook B sid payload .subagentCompleted)
  | "install.done" => some (fromInstallDone B sid payload)
  | "install.error" => some (fromInstallError B sid payload)
  | "error" => some (fromErrorFrame B sid payload)
  | "session.end" => some (fromSessionEnd B sid payload)
  | "pong" => some (fromPong sid payload)
  | _ => none

/-- `frame_to_event`: `none` where the type has no factory. -/
def frameToEvent : Except PyError (Option RelayEvent) :=
  match (asStr (get payload "type")).bind (factory B sid payload) with
  | none => .ok none
  | some event => event.map some

end Factories

/-! ### When a factory raises -/

section Raises

variable {B : Builtins} {sid : String} {payload : Obj}

lemma safeInt_int (n : ℤ) : B.safeInt (.scalar (.int n)) = .ok n := by
  rw [Builtins.safeInt, B.int_int]

lemma safeInt_null : B.safeInt (.scalar .null) = .ok 0 := by
  rw [Builtins.safeInt, B.int_null]

lemma safeInt_str (s : String) : ∃ n, B.safeInt (.str s) = .ok n := by
  rw [Builtins.safeInt]
  split
  · exact ⟨_, rfl⟩
  · rename_i h
    exact absurd h (B.int_str s)
  · exact ⟨_, rfl⟩

lemma or_null (default : Json) : B.or (.scalar .null) default = default := by
  rw [Builtins.or, B.bool_null]
  rfl

lemma dict_or_mapping (d : Obj) : ∃ d', B.dict (B.or (.mapping d) (.mapping [])) = .ok d' := by
  rw [Builtins.or]
  split
  · exact ⟨d, B.dict_mapping d⟩
  · exact ⟨[], B.dict_mapping []⟩

/-- **A frame without the keys that a factory converts raises nothing**, whatever its type. -/
theorem frameToEvent_ok (hseq : ∃ n, B.safeInt (get payload "seq") = .ok n)
    (hargs : ∃ d, B.dict (B.or (get payload "args") (.mapping [])) = .ok d)
    (hnull : ∀ k ∈ ["result", "modules", "duration_ms", "tokens", "cost_usd"],
      get payload k = .scalar .null) :
    ∃ e, frameToEvent B sid payload = .ok e := by
  obtain ⟨seq, hseq⟩ := hseq
  obtain ⟨args, hargs⟩ := hargs
  have hresult : get payload "result" = .scalar .null := hnull _ (by simp)
  have hmodules : get payload "modules" = .scalar .null := hnull _ (by simp)
  have hduration : get payload "duration_ms" = .scalar .null := hnull _ (by simp)
  have htokens : get payload "tokens" = .scalar .null := hnull _ (by simp)
  have hcost : get payload "cost_usd" = .scalar .null := hnull _ (by simp)
  have hfactory : ∀ t event, factory B sid payload t = some event → ∃ e, event = .ok e := by
    intro t event h
    unfold factory at h
    split at h <;> simp only [Option.some.injEq, reduceCtorEq] at h <;> subst h
    · simp [fromMsgChunk, hseq, bind, Except.bind, pure, Except.pure]
    · simp [fromToolRequest, hseq, hargs, bind, Except.bind, pure, Except.pure]
    · simp [fromToolResult, hseq, hresult, or_null, B.dict_mapping, bind, Except.bind, pure,
        Except.pure]
    · simp [fromHook, traceFields, hseq, bind, Except.bind, pure, Except.pure, Except.map]
    · simp [fromHook, traceFields, hseq, bind, Except.bind, pure, Except.pure, Except.map]
    · simp [fromHook, traceFields, hseq, bind, Except.bind, pure, Except.pure, Except.map]
    · simp [fromInstallDone, hmodules, hduration, or_null, iter, safeInt_null, bind, Except.bind,
        pure, Except.pure]
    · simp [fromInstallError, hseq, bind, Except.bind, pure, Except.pure]
    · simp [fromErrorFrame, hseq, bind, Except.bind, pure, Except.pure]
    · simp [fromSessionEnd, htokens, hcost, or_null, asMapping, B.float_zero, bind, Except.bind,
        pure, Except.pure]
    · simp [fromPong, pure, Except.pure]
  rw [frameToEvent]
  split
  · exact ⟨_, rfl⟩
  · rename_i event h
    obtain ⟨t, -, ht⟩ := Option.bind_eq_some_iff.mp h
    obtain ⟨e, rfl⟩ := hfactory t event ht
    exact ⟨some e, rfl⟩

end Raises

end GgRelay.Frames
