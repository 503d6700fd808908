import GgRelay.Lib.Bytes
import GgRelay.Lib.IntText

/-!
The egress proxy: one request of a client is parsed, its host checked against the allow-list, an
upstream connection opened, and the decision recorded.

What the network does is a `World`: how a connection attempt ends, and whether what is written can
be flushed. A handler gives the list of what it did, and how it ended.

* `confined`: connections are opened to allowed hosts only;
* `wellAudited_iff`: when a request is recorded once, as allowed just when it was connected, and
  ends without an unhandled exception.
-/

namespace GgRelay.Proxy

/-- The exceptions that come up. -/
inductive Exn
  | connectionReset | brokenPipe | connectionAborted | connectionRefused
  | timeout
  | os (cls : String)
  | limitOverrun | incompleteRead
  | value | unicodeDecode
  | other (cls : String)
deriving DecidableEq, Repr

/-- `ConnectionError` and its subclasses. -/
def Exn.isConnectionError : Exn → Bool
  | connectionReset | brokenPipe | connectionAborted | connectionRefused => true
  | _ => false

/-- `OSError` and its subclasses, which `TimeoutError` is one of. -/
def Exn.isOsError : Exn → Bool
  | connectionReset | brokenPipe | connectionAborted | connectionRefused | timeout | os _ => true
  | _ => false

/-- `exc.__class__.__name__`. -/
def Exn.className : Exn → String
  | connectionReset => "ConnectionResetError"
  | brokenPipe => "BrokenPipeError"
  | connectionAborted => "ConnectionAbortedError"
  | connectionRefused => "ConnectionRefusedError"
  | timeout => "TimeoutError"
  | os cls => cls
  | limitOverrun => "LimitOverrunError"
  | incompleteRead => "IncompleteReadError"
  | value => "ValueError"
  | unicodeDecode => "UnicodeDecodeError"
  | other cls => cls

/-- A line of the audit log. -/
inductive Record
  | allow (sessionId host : String) (port : ℤ)
  | deny (sessionId host reason : String) (port : Option ℤ)
deriving DecidableEq, Repr

/-- What a handler does. -/
inductive Action
  | audit (record : Record)
  | connect (host : String) (port : ℤ)
  | connected
  | status (code : ℕ) (reason : String)
  | forward (out : Bytes)
deriving DecidableEq, Repr

/-- What a handler did, and how it ended. -/
structure Outcome where
  actions : List Action
  result : Except Exn Unit

namespace Outcome

/-- Do one thing. -/
def perform (a : Action) : Outcome := ⟨[a], .ok ()⟩

/-- Raise. -/
def raise (e : Exn) : Outcome := ⟨[], .error e⟩

/-- The one after the other, unless it raised. -/
def andThen (o k : Outcome) : Outcome :=
  match o.result with
  | .ok () => ⟨o.actions ++ k.actions, k.result⟩
  | .error _ => o

end Outcome

open Outcome

/-- What the network does: `connect` is `open_connection` under its timeout, the drains are those of
the status line and of the forwarded request. -/
structure World where
  connect : String → ℤ → Except Exn Unit
  statusDrain : Except Exn Unit
  upstreamDrain : Except Exn Unit

/-! ### Reading a request -/

/-- The limit of a `StreamReader`. -/
def readerLimit : ℕ := 65536

/-- `_HEADER_LIMIT`. -/
def headerLimit : ℕ := 8192

/-- What a client sends, and what a read raises that waits for more: the stream has ended, stalled
or broken off. -/
structure Client where
  bytes : Bytes
  ending : Exn
deriving DecidableEq, Repr

/-- What `readuntil` raises when no line is left. -/
def Client.noLine (c : Client) : Exn :=
  if readerLimit < (Bytes.splitLines c.bytes).2.length - 1 then .limitOverrun else c.ending

/-- A line is longer than the reader allows; it is measured up to its CR LF. -/
def tooLong (line : Bytes) : Bool := readerLimit < line.length - 2

/-- `headers[key] = value`. -/
def setItem (key value : Bytes) : List (Bytes × Bytes) → List (Bytes × Bytes)
  | [] => [(key, value)]
  | p :: ps => if p.1 = key then (key, value) :: ps else p :: setItem key value ps

/-- `_read_headers`, over the lines that follow; `e` is what it raises when they run out. -/
def readHeaders (e : Exn) : ℕ → List (Bytes × Bytes) → List Bytes →
    Except Exn (List (Bytes × Bytes))
  | _, _, [] => .error e
  | total, headers, line :: lines =>
      if tooLong line then .error .limitOverrun
      else if headerLimit < total + line.length then .error .value
      else if line = [13, 10] then .ok headers
      else if 58 ∉ line then readHeaders e (total + line.length) headers lines
      else
        let (k, v) := Bytes.partition 58 line
        readHeaders e (total + line.length)
          (setItem (Bytes.lower (Bytes.strip k)) (Bytes.rstripNewline (Bytes.strip v)) headers) lines

/-- The session a request is recorded under. -/
def sessionIdOf (headers : List (Bytes × Bytes)) : String :=
  let raw := (headers.lookup (Bytes.ofAscii "x-relay-session-id")).getD (Bytes.ofAscii "unknown")
  let text := String.ofList (Bytes.decodeReplace raw)
  if text = "" then "unknown" else text

/-! ### Answering it -/

variable (allowed : String → Bool) (w : World)

/-- `_write_status`. -/
def writeStatus (code : ℕ) (reason : String) : Outcome where
  actions := [.status code reason]
  result :=
    match w.statusDrain with
    | .error .connectionReset | .error .brokenPipe => .ok ()
    | result => result

/-- `host_port.partition(":")` and the port of a `CONNECT`. -/
def connectTarget (hostPort : List Char) : String × Option ℤ :=
  let portStr := (hostPort.dropWhile (· ≠ ':')).tail
  (String.ofList (hostPort.takeWhile (· ≠ ':')),
    if portStr = [] then some 443 else IntText.parse (String.ofList portStr))

/-- `_handle_connect`. -/
def handleConnect (hostPort : List Char) (sessionId : String) : Outcome :=
  let (host, port?) := connectTarget hostPort
  match port? with
  | none =>
      (writeStatus w 400 "Bad Request").andThen
        (perform (.audit (.deny sessionId host "bad_port" none)))
  | some port =>
      if allowed host then
        (perform (.connect host port)).andThen
          (match w.connect host port with
            | .error e =>
                if e.isOsError then
                  (perform (.audit (.deny sessionId host
                    ("upstream_unreachable:" ++ e.className) (some port)))).andThen
                      (writeStatus w 502 "Bad Gateway")
                else raise e
            | .ok () =>
                (perform .connected).andThen
                  ((perform (.audit (.allow sessionId host port))).andThen
                    (writeStatus w 200 "Connection Established")))
      else
        (perform (.audit (.deny sessionId host "host_not_in_whitelist" (some port)))).andThen
          (writeStatus w 403 "Forbidden")

/-- `host_str` and `port_str` of an absolute URI, and the path that follows. -/
def splitUri (target : Bytes) : Bytes × Bytes × Bytes :=
  let rest := target.drop 7
  let (hostPart, path) := Bytes.partition 47 rest
  let (host, port) := Bytes.partition 58 hostPart
  (host, port, path)

/-- `int(port_str or b"80")`. -/
def plainPort (portStr : Bytes) : Option ℤ :=
  if portStr = [] then some 80 else IntText.parseAscii (portStr.map fun b => Char.ofNat b.toNat)

/-- The request as it is forwarded, in origin form and without the hop-by-hop headers. -/
def originForm (method path : Bytes) (headers : List (Bytes × Bytes)) : Bytes :=
  method ++ [32, 47] ++ path ++ Bytes.ofAscii " HTTP/1.1" ++ [13, 10]
    ++ (headers.filter fun kv =>
        kv.1 ≠ Bytes.ofAscii "proxy-connection" ∧ kv.1 ≠ Bytes.ofAscii "connection").flatMap
          (fun kv => kv.1 ++ [58, 32] ++ kv.2 ++ [13, 10])
    ++ [13, 10]

/-- `target.startswith(b"http://")`. -/
def isHttpUri (target : Bytes) : Bool := (Bytes.ofAscii "http://").isPrefixOf target

/-- `_handle_plain`. -/
def handlePlain (method target : Bytes) (headers : List (Bytes × Bytes)) (sessionId : String) :
    Outcome :=
  if isHttpUri target then
    let (hostStr, portStr, path) := splitUri target
    match Bytes.decode hostStr with
    | none => raise .unicodeDecode
    | some hostChars =>
        let host := String.ofList hostChars
        match plainPort portStr with
        | none => raise .value
        | some port =>
            if allowed host then
              (perform (.audit (.allow sessionId host port))).andThen
                ((perform (.connect host port)).andThen
                  (match w.connect host port with
                    | .error e => if e.isOsError then writeStatus w 502 "Bad Gateway" else raise e
                    | .ok () =>
                        (perform .connected).andThen
                          ((perform (.forward (originForm method path headers))).andThen
                            ⟨[], w.upstreamDrain⟩)))
            else
              (perform (.audit (.deny sessionId host "host_not_in_whitelist" (some port)))).andThen
                (writeStatus w 403 "Forbidden")
  else writeStatus w 400 "Bad Request"

/-- The parts of the request line, if one can be read. -/
def requestLine (c : Client) : Except Exn (List Bytes) :=
  match (Bytes.splitLines c.bytes).1 with
  | [] => .error c.noLine
  | line :: _ =>
      if tooLong line then .error .limitOverrun
      else .ok (Bytes.splitSpaces 2 (Bytes.rstripNewline line))

/-- The headers that follow the request line. -/
def headersOf (c : Client) : Except Exn (List (Bytes × Bytes)) :=
  readHeaders c.noLine 0 [] (Bytes.splitLines c.bytes).1.tail

/-- `b"CONNECT"`. -/
def connectMethod : Bytes := Bytes.ofAscii "CONNECT"

/-- `_handle`. -/
def handle (c : Client) : Outcome :=
  match requestLine c with
  | .error e => raise e
  | .ok [method, target, _] =>
      match headersOf c with
      | .error e => raise e
      | .ok headers =>
          if method = connectMethod then
            match Bytes.decode target with
            | none => raise .unicodeDecode
            | some hostPort => handleConnect allowed w hostPort (sessionIdOf headers)
          else handlePlain allowed w method target headers (sessionIdOf headers)
  | .ok _ => writeStatus w 400 "Bad Request"

/-! ### What it promises -/

/-- The request line names a target host: `CONNECT` with any target, or an absolute `http` URI. -/
def NamesTarget (c : Client) : Prop :=
  ∃ method target version, requestLine c = .ok [method, target, version]
    ∧ (method = connectMethod ∨ isHttpUri target = true)

/-- An action that writes to the audit log. -/
def Action.isAudit : Action → Bool
  | .audit _ => true
  | _ => false

/-- An action that records a request as allowed. -/
def Action.isAllow : Action → Bool
  | .audit (.allow ..) => true
  | _ => false

/-- Connections are opened to allowed hosts only. -/
def Confined (o : Outcome) : Prop :=
  ∀ host port, .connect host port ∈ o.actions → allowed host = true

/-- No exception ends the handler but those of a broken connection. -/
def Handled (o : Outcome) : Prop := ∀ e, o.result = .error e → e.isConnectionError = true

/-- One record, an `allow` just when the connection was established, and no unhandled exception. -/
structure WellAudited (o : Outcome) : Prop where
  once : o.actions.countP Action.isAudit = 1
  allow_iff : o.actions.any Action.isAllow = true ↔ .connected ∈ o.actions
  handled : Handled o

/-- What was written last was flushed, or the connection was broken. -/
def Flushed (result : Except Exn Unit) : Prop := ∀ e, result = .error e → e.isConnectionError = true

/-- A `CONNECT` can be answered: its port text is bad and the client takes the status line, or its
host is refused, or the connection attempt ends in one of the expected ways. -/
def ConnectOk (hostPort : List Char) : Prop :=
  let (host, port?) := connectTarget hostPort
  match port? with
  | none => (writeStatus w 400 "Bad Request").result = .ok ()
  | some port => Flushed w.statusDrain
      ∧ (allowed host = true → ∀ e, w.connect host port = .error e → e.isOsError = true)

/-- A request with an absolute URI can be answered: its host decodes, its port text is a number, and
its host is refused, or reached. -/
def PlainOk (target : Bytes) : Prop :=
  ∃ hostChars port, Bytes.decode (splitUri target).1 = some hostChars
    ∧ plainPort (splitUri target).2.1 = some port
    ∧ (if allowed (String.ofList hostChars) then
        w.connect (String.ofList hostChars) port = .ok () ∧ Flushed w.upstreamDrain
      else Flushed w.statusDrain)

/-- The header section is whole and not too large, and the request can be answered. -/
def Answerable (c : Client) : Prop :=
  ∃ method target version headers, requestLine c = .ok [method, target, version]
    ∧ headersOf c = .ok headers
    ∧ if method = connectMethod then
        ∃ hostPort, Bytes.decode target = some hostPort ∧ ConnectOk allowed w hostPort
      else PlainOk allowed w target

/-! ### The parts of a handler -/

variable {allowed : String → Bool} {w : World} {hostPort : List Char} {sessionId : String}

lemma andThen_perform (a : Action) (o : Outcome) :
    (perform a).andThen o = ⟨a :: o.actions, o.result⟩ := rfl

lemma andThen_ok {o : Outcome} (h : o.result = .ok ()) (k : Outcome) :
    o.andThen k = ⟨o.actions ++ k.actions, k.result⟩ := by
  rw [Outcome.andThen, h]

lemma andThen_error {o : Outcome} {e : Exn} (h : o.result = .error e) (k : Outcome) :
    o.andThen k = o := by
  rw [Outcome.andThen, h]

@[simp] lemma writeStatus_actions (code : ℕ) (reason : String) :
    (writeStatus w code reason).actions = [.status code reason] := rfl

/-- A status line that could not be flushed for another reason than a broken connection. -/
lemma handled_writeStatus {code : ℕ} {reason : String} {actions : List Action} :
    Handled ⟨actions, (writeStatus w code reason).result⟩ ↔ Flushed w.statusDrain := by
  unfold Handled Flushed writeStatus
  constructor
  · intro h e he
    cases e <;> first | rfl | exact h _ (by simp [he])
  · intro h e he
    refine h e ?_
    revert he
    simp only
    split <;> simp_all

/-- What is recorded once, and rightly, is well audited if it ends well. -/
lemma wellAudited_iff_handled {o : Outcome} (honce : o.actions.countP Action.isAudit = 1)
    (hallow : o.actions.any Action.isAllow = true ↔ .connected ∈ o.actions) :
    WellAudited o ↔ Handled o :=
  ⟨WellAudited.handled, fun h => ⟨honce, hallow, h⟩⟩

lemma not_wellAudited {o : Outcome} (h : o.actions.countP Action.isAudit = 0) : ¬ WellAudited o :=
  fun hwell => absurd (h.symm.trans hwell.once) (by decide)

/-- A `CONNECT` is recorded once, and rightly, just when it can be answered. -/
lemma connect_wellAudited_iff :
    WellAudited (handleConnect allowed w hostPort sessionId) ↔ ConnectOk allowed w hostPort := by
  unfold handleConnect ConnectOk
  obtain ⟨host, port?⟩ := connectTarget hostPort
  cases port? with
  | none =>
      simp only
      cases hres : (writeStatus w 400 "Bad Request").result with
      | ok u =>
          rw [andThen_ok hres, wellAudited_iff_handled (by rfl) (by simp [perform, Action.isAllow])]
          simp [Handled, perform]
      | error e =>
          rw [andThen_error hres]
          simpa using not_wellAudited (o := writeStatus w 400 "Bad Request") (by rfl)
  | some port =>
      simp only
      cases hallowed : allowed host with
      | false =>
          rw [if_neg Bool.false_ne_true, andThen_perform,
            wellAudited_iff_handled (by rfl) (by simp [Action.isAllow]), handled_writeStatus]
          simp
      | true =>
          rw [if_pos rfl, andThen_perform]
          cases hconn : w.connect host port with
          | ok u =>
              rw [andThen_perform, andThen_perform, wellAudited_iff_handled (by rfl)
                (by simp [Action.isAllow]), handled_writeStatus]
              simp
          | error e =>
              simp only
              cases hos : e.isOsError with
              | false =>
                  rw [if_neg Bool.false_ne_true]
                  simpa [hos] using not_wellAudited
                    (o := ⟨.connect host port :: (raise e).actions, (raise e).result⟩) (by rfl)
              | true =>
                  rw [if_pos rfl, andThen_perform, wellAudited_iff_handled (by rfl)
                    (by simp [Action.isAllow]), handled_writeStatus]
                  simp [hos]

/-- A request with an absolute URI is recorded once, and rightly, just when it can be answered. -/
lemma plain_wellAudited_iff {method target : Bytes} {headers : List (Bytes × Bytes)}
    (huri : isHttpUri target = true) :
    WellAudited (handlePlain allowed w method target headers sessionId)
      ↔ PlainOk allowed w target := by
  unfold handlePlain PlainOk
  rw [if_pos huri]
  obtain ⟨hostStr, portStr, path⟩ := splitUri target
  simp only
  cases hhost : Bytes.decode hostStr with
  | none => simpa using not_wellAudited (o := raise .unicodeDecode) (by rfl)
  | some hostChars =>
      cases hport : plainPort portStr with
      | none => simpa using not_wellAudited (o := raise .value) (by rfl)
      | some port =>
          have hex : ∀ P : List Char → ℤ → Prop, (∃ cs p, some hostChars = some cs
              ∧ some port = some p ∧ P cs p) ↔ P hostChars port := by
            intro P
            constructor
            · rintro ⟨cs, p, hcs, hp, h⟩
              cases hcs
              cases hp
              exact h
            · exact fun h => ⟨_, _, rfl, rfl, h⟩
          simp only [hex]
          cases hallowed : allowed (String.ofList hostChars) with
          | false =>
              rw [if_neg Bool.false_ne_true, if_neg Bool.false_ne_true, andThen_perform,
                wellAudited_iff_handled (by rfl) (by simp [Action.isAllow]), handled_writeStatus]
          | true =>
              rw [if_pos rfl, if_pos rfl, andThen_perform, andThen_perform]
              cases hconn : w.connect (String.ofList hostChars) port with
              | ok u =>
                  rw [andThen_perform, andThen_perform, wellAudited_iff_handled (by rfl)
                    (by simp [Action.isAllow])]
                  simp [Handled, Flushed]
              | error e =>
                  -- the request was recorded as allowed before the connection failed
                  have hwrong : ∀ o : Outcome, .connected ∉ o.actions → ¬ WellAudited
                      ⟨.audit (.allow sessionId (String.ofList hostChars) port)
                        :: .connect (String.ofList hostChars) port :: o.actions, o.result⟩ := by
                    intro o ho hwell
                    have := hwell.allow_iff.mp (by simp [Action.isAllow])
                    simp [ho] at this
                  cases hos : e.isOsError with
                  | false =>
                      simpa [hos] using hwrong (raise e) (by simp [raise])
                  | true =>
                      simpa [hos] using hwrong (writeStatus w 502 "Bad Gateway") (by simp)

/-- A request that names a target is recorded once, and rightly, just when it can be answered. -/
theorem wellAudited_iff {c : Client} (hc : NamesTarget c) :
    WellAudited (handle allowed w c) ↔ Answerable allowed w c := by
  obtain ⟨method, target, version, hline, hkind⟩ := hc
  unfold handle Answerable
  rw [hline]
  simp only
  cases hheaders : headersOf c with
  | error e => simpa using not_wellAudited (o := raise e) (by rfl)
  | ok headers =>
      have hex : ∀ P : Bytes → Bytes → Prop, (∃ m t v hs,
          (Except.ok [method, target, version] : Except Exn (List Bytes)) = .ok [m, t, v]
            ∧ (Except.ok headers : Except Exn (List (Bytes × Bytes))) = .ok hs ∧ P m t)
              ↔ P method target := by
        intro P
        constructor
        · rintro ⟨m, t, v, hs, hline, -, h⟩
          cases hline
          exact h
        · exact fun h => ⟨_, _, _, _, rfl, rfl, h⟩
      rw [hex]
      by_cases hmethod : method = connectMethod
      · rw [if_pos hmethod]
        simp only [hmethod, if_true]
        cases hdec : Bytes.decode target with
        | none => simpa using not_wellAudited (o := raise .unicodeDecode) (by rfl)
        | some hostPort =>
            rw [connect_wellAudited_iff]
            simp
      · simp only [if_neg hmethod]
        exact plain_wellAudited_iff (hkind.resolve_left hmethod)

/-! ### Confinement -/

lemma confined_of_no_connect {o : Outcome} (h : ∀ host port, .connect host port ∉ o.actions) :
    Confined allowed o :=
  fun host port hmem => absurd hmem (h host port)

lemma Confined.andThen {o k : Outcome} (ho : Confined allowed o) (hk : Confined allowed k) :
    Confined allowed (o.andThen k) := by
  unfold Outcome.andThen
  split
  · intro host port hmem
    rcases List.mem_append.mp hmem with h | h
    · exact ho host port h
    · exact hk host port h
  · exact ho

lemma confined_perform {a : Action} (h : ∀ host port, a = .connect host port → allowed host = true) :
    Confined allowed (perform a) :=
  fun host port hmem => h host port (List.mem_singleton.mp hmem).symm

lemma confined_writeStatus (code : ℕ) (reason : String) :
    Confined allowed (writeStatus w code reason) :=
  confined_of_no_connect (by simp)

lemma confined_raise (e : Exn) : Confined allowed (raise e) :=
  confined_of_no_connect (by simp [raise])

lemma confined_audit (r : Record) : Confined allowed (perform (.audit r)) :=
  confined_perform (by simp)

lemma confined_handleConnect : Confined allowed (handleConnect allowed w hostPort sessionId) := by
  unfold handleConnect
  obtain ⟨host, port?⟩ := connectTarget hostPort
  cases port? with
  | none => exact (confined_writeStatus _ _).andThen (confined_audit _)
  | some port =>
      simp only
      split
      · rename_i hallowed
        refine (confined_perform ?_).andThen ?_
        · rintro _ _ ⟨⟩
          exact hallowed
        · cases w.connect host port with
          | ok u =>
              exact (confined_perform (by simp)).andThen
                ((confined_audit _).andThen (confined_writeStatus _ _))
          | error e =>
              simp only
              split
              · exact (confined_audit _).andThen (confined_writeStatus _ _)
              · exact confined_raise e
      · exact (confined_audit _).andThen (confined_writeStatus _ _)

lemma confined_handlePlain {method target : Bytes} {headers : List (Bytes × Bytes)} :
    Confined allowed (handlePlain allowed w method target headers sessionId) := by
  unfold handlePlain
  obtain ⟨hostStr, portStr, path⟩ := splitUri target
  split
  · simp only
    cases Bytes.decode hostStr with
    | none => exact confined_raise _
    | some hostChars =>
        cases plainPort portStr with
        | none => exact confined_raise _
        | some port =>
            simp only
            split
            · rename_i hallowed
              refine (confined_audit _).andThen ((confined_perform ?_).andThen ?_)
              · rintro _ _ ⟨⟩
                exact hallowed
              · cases w.connect (String.ofList hostChars) port with
                | ok u =>
                    exact (confined_perform (by simp)).andThen
                      ((confined_perform (by simp)).andThen (confined_of_no_connect (by simp)))
                | error e =>
                    simp only
                    split
                    · exact confined_writeStatus _ _
                    · exact confined_raise e
            · exact (confined_audit _).andThen (confined_writeStatus _ _)
  · exact confined_writeStatus _ _

/-- Whatever a client sends, connections are opened to allowed hosts only. -/
theorem confined (c : Client) : Confined allowed (handle allowed w c) := by
  unfold handle
  split
  · exact confined_raise _
  · split
    · exact confined_raise _
    · split
      · split
        · exact confined_raise _
        · exact confined_handleConnect
      · exact confined_handlePlain
  · exact confined_writeStatus _ _

/-- The proxy keeps to its allow-list, and records a request that names a target once and rightly,
just when such a request can be answered. -/
theorem confined_and_audited_iff (allowed : String → Bool) (w : World) (c : Client) :
    (Confined allowed (handle allowed w c)
        ∧ (NamesTarget c → WellAudited (handle allowed w c)))
      ↔ (NamesTarget c → Answerable allowed w c) :=
  ⟨fun h hc => (wellAudited_iff hc).mp (h.2 hc),
    fun h => ⟨confined c, fun hc => (wellAudited_iff hc).mpr (h hc)⟩⟩

/-- A network on which everything works. -/
def quietWorld : World := ⟨fun _ _ => .ok (), .ok (), .ok ()⟩

/-- A port that is no number, in an absolute URI. -/
def badPortRequest : Client :=
  ⟨Bytes.ofAscii "GET http://api.anthropic.com:x/ HTTP/1.1" ++ [13, 10, 13, 10], .incompleteRead⟩

/-- A request for an allowed host with a malformed port ends in a `ValueError`, unrecorded. -/
theorem badPort_unrecorded : ¬ ∀ (allowed : String → Bool) (w : World) (c : Client),
    Confined allowed (handle allowed w c)
      ∧ (NamesTarget c → WellAudited (handle allowed w c)) := by
  intro hall
  have hnames : NamesTarget badPortRequest :=
    ⟨Bytes.ofAscii "GET", Bytes.ofAscii "http://api.anthropic.com:x/", Bytes.ofAscii "HTTP/1.1",
      by rfl, .inr (by decide +kernel)⟩
  have hwell := (hall (fun host => host = "api.anthropic.com") quietWorld badPortRequest).2 hnames
  have hsilent : (handle (fun host => host = "api.anthropic.com") quietWorld
      badPortRequest).actions = [] := by decide +kernel
  exact not_wellAudited (by rw [hsilent]; rfl) hwell

end GgRelay.Proxy
