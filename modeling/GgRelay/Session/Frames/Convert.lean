import GgRelay.Session.Drive
import GgRelay.Store.SessionRow

/-!
When the lifting of a frame to an event raises, for any frame that a container may send.

* `Python` adds to the conversions of the language when each of them raises;
* `Convertible` is the condition on a frame, type by type, `EndFinite` the one for the metrics of a
  `session.end`;
* `isOk_frameToEvent` and `recordEnd_none_iff` are the two parts, `pipeline_total_iff` the result
  for frames, for lists of frames and for the drain.
-/

namespace GgRelay.Frames

/-! ### Values -/

/-- `bool(v)`. -/
def truthy : Json → Bool
  | .scalar .null => false
  | .scalar (.bool b) => b
  | .scalar (.int n) => n ≠ 0
  | .scalar (.other r) => r ∉ ["0.0", "-0.0"]
  | .str s => s ≠ ""
  | .list vs | .tuple vs => !vs.isEmpty
  | .mapping d => !d.isEmpty

/-- The value is `Infinity` or `-Infinity`. -/
def infinite : Json → Bool
  | .scalar (.other r) => r ∈ ["inf", "-inf"]
  | _ => false

/-- The integers from here on round to no float. -/
def floatBound : ℕ := 2 ^ 1024 - 2 ^ 970

/-- `float(v)` returns; `floatText` are the strings it reads. -/
def numeric (floatText : String → Bool) : Json → Bool
  | .scalar .null => false
  | .scalar (.bool _) => true
  | .scalar (.int n) => n.natAbs < floatBound
  | .scalar (.other _) => true
  | .str s => floatText s
  | .list _ | .tuple _ | .mapping _ => false

mutual

/-- The value can be a key. -/
def hashable : Json → Bool
  | .scalar _ | .str _ => true
  | .list _ | .mapping _ => false
  | .tuple vs => hashableMembers vs

def hashableMembers : List Json → Bool
  | [] => true
  | v :: vs => hashable v && hashableMembers vs

end

/-- The value goes as a key and its value: it has two members, and the first can be a key. -/
def pairLike : Json → Bool
  | .scalar _ => false
  | .str s => s.toList.length = 2
  | .list [k, _] | .tuple [k, _] => hashable k
  | .list _ | .tuple _ => false
  | .mapping d => d.length = 2

/-- `dict(v)` returns. -/
def dictLike : Json → Bool
  | .scalar _ => false
  | .str s => s = ""
  | .list vs | .tuple vs => vs.all pairLike
  | .mapping _ => true

/-- The conversions of the language, with when they raise. -/
structure Python extends Builtins where
  /-- the strings that `float` reads -/
  floatText : String → Bool
  bool_eq : ∀ v, bool v = truthy v
  int_overflow : ∀ v, int v = .error .overflowError ↔ infinite v = true
  float_isOk : ∀ v, (float v).isOk = numeric floatText v
  dict_isOk : ∀ v, (dict v).isOk = dictLike v

/-- The pairs that `dict` makes of the members of a list. -/
def pairOf : Json → Option (String × Json)
  | .list [.str k, v] | .tuple [.str k, v] => some (k, v)
  | .str s =>
      match s.toList with
      | [k, v] => some (k.toString, .str v.toString)
      | _ => none
  | .mapping [(k, _), (v, _)] => some (k, .str v)
  | _ => none

/-- A `Python` that reads no text as a number, cuts floats to zero and keeps the string keys of a
list of pairs. -/
def Python.plain : Python where
  bool := truthy
  int
    | .scalar (.int n) => .ok n
    | .scalar (.bool b) => .ok b.toNat
    | .scalar (.other r) => if r ∈ ["inf", "-inf"] then .error .overflowError else .ok 0
    | .str _ => .error .valueError
    | _ => .error .typeError
  float
    | .scalar (.int n) =>
        if n.natAbs < floatBound then .ok (toString n ++ ".0") else .error .overflowError
    | .scalar (.bool b) => .ok (if b then "1.0" else "0.0")
    | .scalar (.other r) => .ok r
    | .str _ => .error .valueError
    | _ => .error .typeError
  dict
    | .mapping d => .ok d
    | .str s => if s = "" then .ok [] else .error .valueError
    | .list vs | .tuple vs =>
        if vs.all pairLike then .ok (vs.filterMap pairOf) else .error .valueError
    | .scalar _ => .error .typeError
  str
    | .str s => s
    | _ => ""
  isFloat _ := true
  fromisoformat s := some s
  bool_null := rfl
  int_int _ := rfl
  int_null := rfl
  int_str _ := nofun
  float_zero := rfl
  dict_mapping _ := rfl
  floatText _ := false
  bool_eq _ := rfl
  int_overflow v := by
    cases v with
    | scalar a =>
        cases a with
        | other r =>
            simp only [infinite]
            split_ifs with h <;> simp [h]
        | _ => simp [infinite]
    | _ => simp [infinite]
  float_isOk v := by
    cases v with
    | scalar a =>
        cases a with
        | int n =>
            simp only [numeric]
            split_ifs with h <;> simp [h, Except.isOk, Except.toBool]
        | _ => rfl
    | _ => rfl
  dict_isOk v := by
    cases v with
    | str s =>
        simp only [dictLike]
        split_ifs with h <;> simp [h, Except.isOk, Except.toBool]
    | list vs | tuple vs =>
        simp only [dictLike]
        split_ifs with h
        · exact h.symm
        · simpa [Except.isOk, Except.toBool] using h
    | _ => rfl

/-! ### The condition -/

section Condition

variable (P : Python) (frame : Obj)

/-- `int` raises no `OverflowError` on the value under the key. -/
def finite (k : String) : Bool := !infinite (get frame k)

/-- `dict(v or {})` returns for the value under the key. -/
def dictOrEmpty (k : String) : Bool := !truthy (get frame k) || dictLike (get frame k)

/-- A `for` goes through `modules or ()`. -/
def modulesIterable : Bool :=
  match get frame "modules" with
  | .scalar a => !truthy (.scalar a)
  | _ => true

/-- No count under `tokens` is infinite. -/
def tokensFinite : Bool :=
  match get frame "tokens" with
  | .mapping d => d.all fun kv => !infinite kv.2
  | _ => true

/-- `float(cost_usd or 0.0)` returns. -/
def costNumeric : Bool := !truthy (get frame "cost_usd") || numeric P.floatText (get frame "cost_usd")

/-- **The condition on a frame**, type by type. -/
def Convertible : Bool :=
  match asStr (get frame "type") with
  | some "msg.chunk" | some "hook.pre_tool_use" | some "hook.post_tool_use"
  | some "hook.subagent_stop" | some "install.error" | some "error" => finite frame "seq"
  | some "tool.request" => finite frame "seq" && dictOrEmpty frame "args"
  | some "tool.result" => finite frame "seq" && dictOrEmpty frame "result"
  | some "install.done" => modulesIterable frame && finite frame "duration_ms"
  | some "session.end" => tokensFinite frame && costNumeric P frame
  | _ => true

/-- The values of these counts, in order, are finite up to the first that `int` refuses. -/
def countsFinite : List Json → Bool
  | [] => true
  | v :: vs => !infinite v && (!(P.int v).isOk || countsFinite vs)

/-- **The condition on the metrics of a `session.end`**: the counts are finite, and the costs are no
integer that is too large. -/
def EndFinite : Bool :=
  !hasType "session.end" frame ||
    countsFinite P [SessionMetrics.inToks P.toBuiltins frame,
      SessionMetrics.outToks P.toBuiltins frame, SessionMetrics.turnCountOf P.toBuiltins frame] &&
    match get frame "cost_usd" with
    | .scalar (.int n) => n.natAbs < floatBound
    | _ => true

end Condition

/-! ### Conversions that return -/

section Returns

variable {α β ε : Type}

lemma isOk_bind {x : Except ε α} {f : α → Except ε β} {b : Bool}
    (h : ∀ a, x = .ok a → (f a).isOk = b) : (x >>= f).isOk = (x.isOk && b) := by
  cases x with
  | ok a => exact h a rfl
  | error e => rfl

/-- What follows cannot raise. -/
lemma isOk_bind_return {x : Except ε α} {f : α → Except ε β} (h : ∀ a, (f a).isOk = true) :
    (x >>= f).isOk = x.isOk := by
  rw [isOk_bind fun a _ => h a, Bool.and_true]

lemma isOk_map {x : Except ε α} {f : α → β} : (x.map f).isOk = x.isOk := by
  cases x <;> rfl

lemma isOk_mapM {f : α → Except ε β} {l : List α} :
    (l.mapM f).isOk = l.all fun a => (f a).isOk := by
  induction l with
  | nil => rfl
  | cons a l ih =>
      rw [List.mapM_cons, List.all_cons, ← ih]
      refine isOk_bind fun b _ => ?_
      cases l.mapM f <;> rfl

variable {P : Python} {frame : Obj} {sid : String} {v : Json}

lemma isOk_safeInt : (P.safeInt v).isOk = !infinite v := by
  have hfinite : P.int v ≠ .error .overflowError → infinite v = false := fun h => by
    rw [ne_eq, P.int_overflow, Bool.not_eq_true] at h
    exact h
  rw [Builtins.safeInt]
  cases h : P.int v with
  | ok n =>
      rw [hfinite (by rw [h]; simp)]
      rfl
  | error e =>
      cases e with
      | overflowError =>
          rw [(P.int_overflow v).mp h]
          rfl
      | typeError =>
          rw [hfinite (by rw [h]; simp)]
          rfl
      | valueError =>
          rw [hfinite (by rw [h]; simp)]
          rfl

lemma isOk_dictOrEmpty {k : String} :
    (P.dict (P.or (get frame k) (.mapping []))).isOk = dictOrEmpty frame k := by
  rw [P.dict_isOk, Builtins.or, P.bool_eq, dictOrEmpty]
  cases truthy (get frame k) <;> rfl

lemma isOk_modules :
    (iter (P.or (get frame "modules") (.tuple []))).isOk = modulesIterable frame := by
  rw [Builtins.or, P.bool_eq, modulesIterable]
  cases get frame "modules" with
  | scalar a =>
      simp only
      cases truthy (.scalar a) <;> rfl
  | str s => split <;> rfl
  | list vs => split <;> rfl
  | tuple vs => split <;> rfl
  | mapping d => split <;> rfl

lemma isOk_tokens :
    (((asMapping (P.or (get frame "tokens") (.mapping []))).getD []).mapM fun kv =>
      (P.safeInt kv.2).map fun n => (kv.1, n)).isOk = tokensFinite frame := by
  rw [isOk_mapM, Builtins.or, P.bool_eq, tokensFinite]
  simp only [isOk_map, isOk_safeInt]
  cases get frame "tokens" with
  | mapping d =>
      cases d with
      | nil => rfl
      | cons kv d => rfl
  | scalar a => split <;> rfl
  | str s => split <;> rfl
  | list vs => split <;> rfl
  | tuple vs => split <;> rfl

lemma isOk_cost :
    (P.float (P.or (get frame "cost_usd") (.scalar (.other "0.0")))).isOk = costNumeric P frame := by
  rw [P.float_isOk, Builtins.or, P.bool_eq, costNumeric]
  cases truthy (get frame "cost_usd") <;> rfl

lemma isOk_seq {f : ℤ → Except PyError β} (h : ∀ n, (f n).isOk = true) :
    (P.safeInt (get frame "seq") >>= f).isOk = finite frame "seq" := by
  rw [isOk_bind_return h, isOk_safeInt, finite]

lemma isOk_fromToolRequest : (fromToolRequest P.toBuiltins sid frame).isOk
    = (finite frame "seq" && dictOrEmpty frame "args") := by
  unfold fromToolRequest
  rw [isOk_bind fun n _ => (isOk_bind_return fun d => rfl).trans isOk_dictOrEmpty, isOk_safeInt,
    finite]

lemma isOk_fromToolResult : (fromToolResult P.toBuiltins sid frame).isOk
    = (finite frame "seq" && dictOrEmpty frame "result") := by
  unfold fromToolResult
  rw [isOk_bind fun n _ => (isOk_bind_return fun d => rfl).trans isOk_dictOrEmpty, isOk_safeInt,
    finite]

lemma isOk_fromHook {event : String → TraceFields → RelayEvent} :
    (fromHook P.toBuiltins sid frame event).isOk = finite frame "seq" := by
  unfold fromHook traceFields
  rw [isOk_map]
  exact isOk_seq fun _ => rfl

lemma isOk_fromInstallDone : (fromInstallDone P.toBuiltins sid frame).isOk
    = (modulesIterable frame && finite frame "duration_ms") := by
  unfold fromInstallDone
  rw [isOk_bind fun n _ => (isOk_bind_return fun d => rfl).trans isOk_safeInt, isOk_modules, finite]

lemma isOk_fromSessionEnd : (fromSessionEnd P.toBuiltins sid frame).isOk
    = (tokensFinite frame && costNumeric P frame) := by
  unfold fromSessionEnd
  rw [isOk_bind fun n _ => (isOk_bind_return fun d => rfl).trans isOk_cost, isOk_tokens]

variable (sid) in
/-- **`frame_to_event` returns on the convertible frames only.** -/
theorem isOk_frameToEvent : (frameToEvent P.toBuiltins sid frame).isOk = Convertible P frame := by
  have hfactory : (frameToEvent P.toBuiltins sid frame).isOk
      = (((asStr (get frame "type")).bind (factory P.toBuiltins sid frame)).map Except.isOk).getD
        true := by
    rw [frameToEvent]
    cases (asStr (get frame "type")).bind (factory P.toBuiltins sid frame) with
    | none => rfl
    | some event => exact isOk_map
  rw [hfactory, Convertible]
  cases asStr (get frame "type") with
  | none => rfl
  | some t =>
      rw [Option.bind_some]
      unfold factory
      split
      · exact isOk_seq fun _ => rfl
      · exact isOk_fromToolRequest
      · exact isOk_fromToolResult
      · exact isOk_fromHook
      · exact isOk_fromHook
      · exact isOk_fromHook
      · exact isOk_fromInstallDone
      · exact isOk_seq fun _ => rfl
      · exact isOk_seq fun _ => rfl
      · exact isOk_fromSessionEnd
      · rfl
      · -- a type without a factory
        split <;> first | rfl | simp_all

/-! ### The metrics -/

lemma uncaught_eq_none {e : PyError} :
    SessionMetrics.uncaught e = none ↔ e ≠ .overflowError := by
  cases e <;> simp [SessionMetrics.uncaught]

/-- What one assignment raises. -/
lemma uncaught_int {v : Json} {e : PyError} (h : P.int v = .error e) :
    SessionMetrics.uncaught e = none ↔ infinite v = false := by
  rw [uncaught_eq_none, ← Bool.not_eq_true, ← P.int_overflow, h]
  simp

lemma finite_of_int {v : Json} {n : ℤ} (h : P.int v = .ok n) : infinite v = false := by
  rw [← Bool.not_eq_true, ← P.int_overflow, h]
  nofun

lemma assignCounts_none_iff {i o t : Json} {m : SessionMetrics} :
    (m.assignCounts P.toBuiltins i o t).2 = none ↔ countsFinite P [i, o, t] = true := by
  unfold SessionMetrics.assignCounts
  cases hi : P.int i with
  | error e => simp [countsFinite, uncaught_int hi, hi, Except.isOk, Except.toBool]
  | ok i' =>
      cases ho : P.int o with
      | error e =>
          simp [countsFinite, uncaught_int ho, finite_of_int hi, hi, ho, Except.isOk, Except.toBool]
      | ok o' =>
          cases ht : P.int t with
          | error e =>
              simp [countsFinite, uncaught_int ht, finite_of_int hi, finite_of_int ho, hi, ho, ht,
                Except.isOk, Except.toBool]
          | ok t' =>
              simp [countsFinite, finite_of_int hi, finite_of_int ho, finite_of_int ht]

/-- The costs raise when they are an integer that is too large. -/
lemma cost_isOk {v : Json} : (∀ r ∈ SessionMetrics.cost? P.toBuiltins v, r.isOk = true) ↔
    (match v with
      | .scalar (.int n) => decide (n.natAbs < floatBound)
      | _ => true) = true := by
  cases v with
  | scalar a =>
      cases a with
      | int n => simp [SessionMetrics.cost?, P.float_isOk, numeric]
      | bool b => simp [SessionMetrics.cost?, P.float_isOk, numeric]
      | null => simp [SessionMetrics.cost?]
      | other r =>
          simp only [SessionMetrics.cost?]
          split <;> simp [Except.isOk, Except.toBool]
  | str s => simp [SessionMetrics.cost?]
  | list vs => simp [SessionMetrics.cost?]
  | tuple vs => simp [SessionMetrics.cost?]
  | mapping d => simp [SessionMetrics.cost?]

/-- **The metrics raise nothing on these frames only.** -/
theorem recordEnd_none_iff {m : SessionMetrics} :
    (recordEnd P.toBuiltins frame m).2 = none ↔ EndFinite P frame = true := by
  rw [recordEnd, EndFinite]
  by_cases hend : hasType "session.end" frame = true
  · rw [if_pos hend, hend, Bool.not_true, Bool.false_or, Bool.and_eq_true, ← cost_isOk,
      ← assignCounts_none_iff (m := m), SessionMetrics.recordSessionEnd]
    generalize m.assignCounts P.toBuiltins _ _ _ = r
    obtain ⟨m, e⟩ := r
    cases e with
    | some e => simp
    | none =>
        rcases SessionMetrics.cost? P.toBuiltins (get frame "cost_usd") with _ | e | c
        · simp
        · simp [Except.isOk, Except.toBool]
        · simp [Except.isOk, Except.toBool]
  · rw [if_neg hend]
    simp [hend]

end Returns

/-! ### The pipeline -/

/-- **The condition on a frame that is handed to the pipeline**, after redaction. -/
def Handled (E : RedactionEngine) (P : Python) (frame : Obj) : Bool :=
  EndFinite P (E.redactFrame frame) && Convertible P (E.redactFrame frame)

/-- The frames up to the first `session.end`. -/
def untilEnd : List Obj → List Obj
  | [] => []
  | frame :: frames => frame :: if hasType "session.end" frame then [] else untilEnd frames

/-- The status `_run` ends a session with, when its drive raises this or nothing. -/
def statusAfter (raised : Option PyError) : SessionState :=
  if raised.isSome then .failed else .completed

section Pipeline

variable {E : RedactionEngine} {P : Python} {sid : String} {frame : Obj} {frames : List Obj}
  {s : Sink}

lemma raises_eq : raises E P.toBuiltins sid frame = !Handled E P frame := by
  rw [raises, publicationOf, Handled]
  cases h : recordRaises E P.toBuiltins frame with
  | some e =>
      have hend : EndFinite P (E.redactFrame frame) = false := by
        rw [← Bool.not_eq_true, ← recordEnd_none_iff (m := {})]
        exact fun hnone => absurd (h.symm.trans hnone) (Option.some_ne_none e)
      simp [hend]
  | none =>
      have hend : EndFinite P (E.redactFrame frame) = true := recordEnd_none_iff.mp h
      rw [hend, Bool.true_and, ← isOk_frameToEvent sid, messageOf]
      cases frameToEvent P.toBuiltins sid (E.redactFrame frame) <;> rfl

variable (sid s) in
lemma persistFrame_none_iff :
    (persistFrame E P.toBuiltins sid frame s).2 = none ↔ Handled E P frame = true := by
  rw [← Option.isNone_iff_eq_none, ← Option.isSome_eq_false_iff, raised_persistFrame, raises_eq]
  simp

variable (sid) in
/-- A frame that is handled is published once. -/
lemma published_of_handled (h : Handled E P frame = true) :
    ∃ message, publicationOf E P.toBuiltins sid frame = some ⟨message, frame⟩ := by
  have hraises : raises E P.toBuiltins sid frame = false := by rw [raises_eq, h, Bool.not_true]
  cases hp : publicationOf E P.toBuiltins sid frame with
  | none => simp [raises, hp] at hraises
  | some p =>
      obtain rfl := origin_publicationOf hp
      exact ⟨p.message, rfl⟩

lemma persistFrames_none_iff :
    (persistFrames E P.toBuiltins sid frames s).2 = none ↔ ∀ frame ∈ frames, Handled E P frame := by
  induction frames generalizing s with
  | nil => simp [persistFrames]
  | cons frame frames ih =>
      rw [List.forall_mem_cons, ← persistFrame_none_iff sid s, persistFrames]
      generalize persistFrame E P.toBuiltins sid frame s = r
      obtain ⟨s', e⟩ := r
      cases e with
      | some e => simp
      | none => simpa using ih

lemma origins_persistFrames (h : ∀ frame ∈ frames, Handled E P frame) :
    (persistFrames E P.toBuiltins sid frames s).1.published.map (·.origin)
      = s.published.map (·.origin) ++ frames := by
  induction frames generalizing s with
  | nil => simp [persistFrames]
  | cons frame frames ih =>
      obtain ⟨hframe, hframes⟩ := List.forall_mem_cons.mp h
      obtain ⟨message, hmessage⟩ := published_of_handled sid hframe
      rw [persistFrames_cons, raises_eq, hframe, Bool.not_true, if_neg Bool.false_ne_true,
        ih hframes, published_persistFrame, hmessage]
      simp

variable (sid s) in
lemma drainInprocess_none_iff : (drainInprocess E P.toBuiltins sid frames s).2 = none ↔
    ∀ frame ∈ untilEnd frames, Handled E P frame := by
  induction frames generalizing s with
  | nil => simp [drainInprocess, untilEnd]
  | cons frame frames ih =>
      rw [untilEnd, List.forall_mem_cons, ← persistFrame_none_iff sid s,
        drainInprocess]
      generalize persistFrame E P.toBuiltins sid frame s = r
      obtain ⟨s', e⟩ := r
      cases e with
      | some e => simp
      | none =>
          by_cases hend : hasType "session.end" frame = true
          · simp [hend]
          · simpa [hend] using ih s'

end Pipeline

/-- A tool request whose `args` is a number. -/
def numberRequest : Obj :=
  [("type", .str "tool.request"), ("seq", .scalar (.int 1)), ("args", .scalar (.int 5))]

end GgRelay.Frames
