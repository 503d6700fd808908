import GgRelay.Session.Frames.Convert

/-!
How the host connects to the runner of a Kubernetes job (`session/transport/tcp.py`,
`TcpTransport.connect`).

* `Network` is all that the network does to one call, `connect` the call: the loop that opens the
  connection, then the handshake;
* `Network.Foreseen` are the behaviours that the code is prepared for, `connect_foreseen_iff` says
  that after these, and only these, it raises one of the two exceptions it documents.
-/

namespace GgRelay.K8sJob

open Frames

/-- What an awaited call raises. -/
inductive Exn where
  | connectionError
  | timeoutError
  /-- another `OSError` -/
  | osError
  | transportClosed
  /-- another `Exception` -/
  | other
  /-- `CancelledError`, or another exception that is no `Exception` -/
  | cancelled
  deriving DecidableEq, Repr

/-- `isinstance(e, Exception)`. -/
def Exn.isException (e : Exn) : Bool := e ≠ .cancelled

/-- `isinstance(e, OSError)`. -/
def Exn.isOSError (e : Exn) : Bool := e ∈ [connectionError, timeoutError, osError]

/-- A call of `open_connection`. -/
structure Attempt where
  result : Except Exn Unit
  /-- the sleep after it is cancelled -/
  sleepCancelled : Bool := false

/-- The line that is read, as `json.loads` finds it. -/
inductive AckLine where
  | eof
  /-- a `JSONDecodeError` or a `UnicodeDecodeError` -/
  | malformed
  /-- another exception: a number with too many digits, too many brackets -/
  | unloadable
  | value (ack : Json)

/-- What the network does to a call of `connect`. -/
structure Network where
  /-- the attempts for which there is time -/
  attempts : List Attempt
  drain : Except Exn Unit := .ok ()
  readline : Except Exn AckLine
  waitClosed : Except Exn Unit := .ok ()

/-- What `connect` raises. -/
inductive ConnectExn where
  | authFailed
  | raised (e : Exn)
  deriving DecidableEq, Repr

/-- The loop that opens the connection. -/
def openConnection : List Attempt → Except ConnectExn Unit
  | [] => .error (.raised .connectionError)
  | a :: attempts =>
      match a.result with
      | .ok () => .ok ()
      | .error e =>
          if e.isOSError then
            if a.sleepCancelled then .error (.raised .cancelled) else openConnection attempts
          else .error (.raised e)

/-- The server accepts the token. -/
def accepted : Json → Bool
  | .mapping d => asStr (get d "type") = some "auth.ack" && truthy (get d "ok")
  | _ => false

/-- `except (TimeoutError, ConnectionError)`. -/
def Exn.failsHandshake (e : Exn) : Bool := e ∈ [timeoutError, connectionError]

namespace Network

variable (net : Network)

/-- The connection is given up: an `Exception` of `wait_closed` is suppressed. -/
def giveUp : ConnectExn :=
  match net.waitClosed with
  | .error e => if e.isException then .authFailed else .raised e
  | .ok () => .authFailed

/-- The handshake. -/
def handshake : Except ConnectExn Unit :=
  match net.drain.bind fun _ => net.readline with
  | .error e => .error (if e.failsHandshake then net.giveUp else .raised e)
  | .ok .eof => .error net.giveUp
  | .ok .malformed => .error net.giveUp
  | .ok .unloadable => .error (.raised .other)
  | .ok (.value ack) => if accepted ack then .ok () else .error net.giveUp

/-- `TcpTransport.connect`. -/
def connect : Except ConnectExn Unit :=
  (openConnection net.attempts).bind fun _ => net.handshake

end Network

/-! ### What the code is prepared for -/

/-- Every attempt that is made ends as the loop expects. -/
def attemptsForeseen : List Attempt → Bool
  | [] => true
  | a :: attempts =>
      match a.result with
      | .ok () => true
      | .error e => e.isOSError && !a.sleepCancelled && attemptsForeseen attempts

namespace Network

variable (net : Network)

/-- One of the attempts succeeds. -/
def opens : Bool := net.attempts.any fun a => a.result.isOk

/-- The giving up is not cancelled. -/
def closes : Bool :=
  match net.waitClosed with
  | .error e => e.isException
  | .ok () => true

/-- The answer to the token is one that the handshake expects. -/
def answerForeseen : Bool :=
  match net.drain, net.readline with
  | .error e, _ => e.failsHandshake && net.closes
  | .ok (), .error e => e.failsHandshake && net.closes
  | .ok (), .ok .unloadable => false
  | .ok (), .ok (.value ack) => accepted ack || net.closes
  | .ok (), .ok _ => net.closes

/-- **The behaviours that the code is prepared for.** -/
def Foreseen : Bool := attemptsForeseen net.attempts && (!net.opens || net.answerForeseen)

end Network

/-- `except (AuthFailed, ConnectionError)`. -/
def ConnectExn.isExpected (e : ConnectExn) : Bool :=
  e ∈ [.authFailed, .raised .connectionError]

section Foreseen

variable {net : Network}

lemma isExpected_giveUp : net.giveUp.isExpected = net.closes := by
  rw [Network.giveUp, Network.closes]
  cases net.waitClosed with
  | ok u => rfl
  | error e => cases e <;> rfl

/-- What drain and readline raise is expected if the handshake turns it into `AuthFailed`. -/
lemma isExpected_ite (e : Exn) :
    (if e.failsHandshake then net.giveUp else .raised e).isExpected
      = (e.failsHandshake && net.closes) := by
  rw [← isExpected_giveUp]
  cases e <;> rfl

lemma handshake_foreseen_iff :
    (∀ e, net.handshake = .error e → e.isExpected = true) ↔ net.answerForeseen = true := by
  rw [Network.handshake, Network.answerForeseen]
  cases net.drain with
  | error e => simp [Except.bind, isExpected_ite]
  | ok u =>
      cases net.readline with
      | error e => simp [Except.bind, isExpected_ite]
      | ok line =>
          cases line with
          | eof => simp [Except.bind, isExpected_giveUp]
          | malformed => simp [Except.bind, isExpected_giveUp]
          | unloadable => simp [Except.bind, ConnectExn.isExpected]
          | value ack => cases h : accepted ack <;> simp [Except.bind, isExpected_giveUp, h]

/-- The loop raises what `start` does not expect exactly on the attempts it is not prepared for;
it returns only if one of them succeeds. -/
lemma openConnection_cases (attempts : List Attempt) :
    (attemptsForeseen attempts = false ∧
      ∃ e, openConnection attempts = .error e ∧ e.isExpected = false) ∨
    (attemptsForeseen attempts = true ∧
      openConnection attempts = if attempts.any fun a => a.result.isOk then .ok ()
        else .error (.raised .connectionError)) := by
  induction attempts with
  | nil => exact Or.inr ⟨rfl, rfl⟩
  | cons a attempts ih =>
      obtain ⟨result, sleepCancelled⟩ := a
      cases result with
      | ok u => exact Or.inr ⟨rfl, by simp [openConnection, Except.isOk, Except.toBool]⟩
      | error e =>
          by_cases he : e.isOSError = true
          · cases sleepCancelled with
            | true =>
                refine Or.inl ⟨by simp [attemptsForeseen], .raised .cancelled, ?_, rfl⟩
                simp [openConnection, he]
            | false =>
                simpa [attemptsForeseen, openConnection, he, Except.isOk, Except.toBool] using ih
          · refine Or.inl
              ⟨by simp [attemptsForeseen, he], .raised e, by simp [openConnection, he], ?_⟩
            cases e <;> first | rfl | exact absurd rfl he

/-- **`connect` raises what `start` expects after the behaviours it is prepared for, and only after
these.** -/
theorem connect_foreseen_iff :
    (∀ e, net.connect = .error e → e.isExpected = true) ↔ net.Foreseen = true := by
  rw [Network.connect, Network.Foreseen, Network.opens]
  rcases openConnection_cases net.attempts with ⟨hf, e, he, hne⟩ | ⟨hf, he⟩
  · rw [hf, he]
    simpa [Except.bind] using hne
  · rw [hf, he, Bool.true_and]
    cases net.attempts.any fun a => a.result.isOk with
    | false => simp [Except.bind, ConnectExn.isExpected]
    | true => simpa [Except.bind] using handshake_foreseen_iff

end Foreseen

end GgRelay.K8sJob
