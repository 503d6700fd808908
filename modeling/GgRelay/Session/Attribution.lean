import GgRelay.Session.Environment
import GgRelay.Session.Retry

/-!
Whose credentials a session runs with: `SessionManager.submit` and `SessionManager.retry`, from
their arguments to the executor.

* `getForUser` is the lookup in the store of the credentials, `submit` and `retry` are the two
  calls with all they write, `startExecutor` is what an executor is handed;
* `handed_eq` is what is handed over in terms of the call, `credentials_attributed` the result: it
  depends on the body and on the rows of the actor only, and a strict rejection leaves no trace.
-/

namespace GgRelay.Attribution

open Frames

/-! ### The stored credentials -/

/-- What `get_for_user` selects of a row. -/
structure Secret where
  envName : String
  valueEncrypted : String
  keyFingerprint : String

/-- A row of `user_credentials`. -/
structure CredentialRow where
  userLabel : String
  secret : Secret

/-- What comes of decrypting and decoding a value. -/
inductive Decrypted where
  | invalidToken
  | undecodable
  | text (plaintext : String)

/-- `UserCredentialsStore`; without a key it is disabled. -/
structure CredentialsStore where
  fernet : Option (String → Decrypted)
  keyFingerprint : Option String

/-- `out[k] = v`. -/
def setItem (out : Credentials) (k v : String) : Credentials :=
  if (out.lookup k).isSome then out.map fun kv => if kv.1 = k then (k, v) else kv
  else out ++ [(k, v)]

/-- The rows of the user, as the query returns them. -/
def rowsOf (rows : List CredentialRow) (label : String) : List Secret :=
  (rows.filter fun row => row.userLabel = label).map (·.secret)

/-- One row: it is skipped if another key has encrypted it, or if it cannot be decrypted. -/
def readSecret (store : CredentialsStore) (decrypt : String → Decrypted) (out : Credentials)
    (row : Secret) : Except Exn Credentials :=
  if store.keyFingerprint.isSome ∧ store.keyFingerprint ≠ some row.keyFingerprint then .ok out
  else
    match decrypt row.valueEncrypted with
    | .invalidToken => .ok out
    -- a `UnicodeDecodeError`
    | .undecodable => .error (.other "unknown" 500)
    | .text plaintext => .ok (setItem out row.envName plaintext)

/-- `get_for_user`, where `rows` is what the query comes back with. -/
def getForUser (store : CredentialsStore) (rows : Except Exn (List CredentialRow))
    (label : String) : Except Exn Credentials :=
  match store.fernet with
  | none => .ok []
  | some decrypt =>
      if label = "" then .ok []
      else rows.bind fun rows => (rowsOf rows label).foldlM (readSecret store decrypt) []

/-! ### The two calls -/

/-- A row that `create_session` inserts. -/
structure RowWrite where
  id : String
  specJson : Obj
  traceId : Option String
  backend : String
  tags : List Json
  owner : Option String
  description : Option String
  parentSessionId : Option String

/-- What a call writes, publishes and starts. -/
inductive Effect (Policy : Type) where
  | row (write : RowWrite)
  | audit (actor action targetId : String)
  | event (sessionId promptRedacted : String) (tags : List Json)
  | task (sid : String) (spec : SpecRecord Policy) (ctx : RuntimeContext)

/-- What the two calls raise. -/
inductive CallError where
  | exn (e : Exn)
  | retry (e : RetryError)
  deriving DecidableEq

/-- A call with the effects it has had. -/
structure Run (Policy : Type) where
  effects : List (Effect Policy)
  result : Except CallError String

/-- The manager, as far as these calls read it. -/
structure Relay where
  cfg : ManagerConfig
  store : CredentialsStore
  redactor : RedactionEngine
  builtins : Builtins
  defaultTimeoutS : ℤ
  hasAudit : Bool

/-- What a call meets: the tables, the id it draws, and what the writes raise. -/
structure World where
  acceptingNew : Bool := true
  rows : Except Exn (List CredentialRow)
  sid : String
  create : Option Exn := none
  audit : Option Exn := none
  publish : Option Exn := none
  /-- the second audit row, that of a retry -/
  retryAudit : Option Exn := none

/-- The arguments of `submit`. -/
structure SubmitCall (Policy : Type) where
  spec : SpecRecord Policy
  ctx : RuntimeContext := {}
  owner : Option String := none
  actorLabel : Option String := none
  actorRole : Option String := none
  description : Option String := none
  parentSessionId : Option String := none

/-- `to_json_safe`. -/
def SpecRecord.toJsonSafe {Policy : Type} (s : SpecRecord Policy) : Obj :=
  [("prompt", .str s.prompt),
    ("cwd", .str (String.ofList s.cwd.text)),
    ("plugins", .mapping [
      ("profile", s.plugins.profile),
      ("modules", .list s.plugins.modules),
      ("skills", .list s.plugins.skills),
      ("with_components", .list s.plugins.withComponents),
      ("without_components", .list s.plugins.withoutComponents),
      ("extra_env", .list (s.plugins.extraEnv.map fun p => .list [p.1, p.2])),
      ("pre_run_cmds", .list (s.plugins.preRunCmds.map .list))]),
    ("executor", .str s.executor),
    ("timeout_s", .scalar (.int s.timeoutS)),
    ("metadata", jsonPairs s.metadata),
    ("tags", .list s.tags)]

section Calls

variable {Policy : Type} (R : Relay) (w : World)

/-- An audit row; what it raises is swallowed, unless the call is cancelled. -/
def audited (actor action targetId : String) (raised : Option Exn) :
    List (Effect Policy) × Option Exn :=
  if R.hasAudit then
    ([.audit actor action targetId], raised.filter (· = .cancelledError))
  else ([], none)

/-- `submit` from `create_session` on, with the credentials that are settled. -/
def submitSettled (c : SubmitCall Policy) (creds : Credentials) : Run Policy :=
  let stored := R.redactor.redactDict (SpecRecord.toJsonSafe c.spec)
  let prompt := textOf R.builtins (getD stored "prompt" (.str ""))
  let row := Effect.row {
    id := w.sid
    specJson := stored
    traceId := if c.ctx.traceId = "" then none else some c.ctx.traceId
    backend := c.spec.executor
    tags := c.spec.tags
    owner := c.owner
    description := c.description
    parentSessionId := c.parentSessionId }
  let audit := audited R (if c.owner.getD "" = "" then "anon" else c.owner.getD "")
    "session_create" w.sid w.audit
  let event := Effect.event w.sid (String.ofList (prompt.toList.take 512)) c.spec.tags
  let task := Effect.task w.sid c.spec { c.ctx with credentials := creds }
  match w.create, audit.2, w.publish with
  | some e, _, _ => ⟨[row], .error (.exn e)⟩
  | none, some e, _ => ⟨row :: audit.1, .error (.exn e)⟩
  | none, none, some e => ⟨row :: audit.1 ++ [event], .error (.exn e)⟩
  | none, none, none => ⟨row :: audit.1 ++ [event, task], .ok w.sid⟩

/-- What the checks of `submit` read of its arguments. -/
def SubmitCall.args (c : SubmitCall Policy) : SubmitArgs where
  owner := c.owner
  actorLabel := c.actorLabel
  actorRole := c.actorRole
  credentials := c.ctx.credentials

/-- `submit` looks the credentials of its actor up. -/
def looksUp (actorLabel : Option String) : Prop :=
  R.cfg.hasCredentialsStore ∧ actorLabel.getD "" ≠ ""

instance (actorLabel : Option String) : Decidable (looksUp R actorLabel) :=
  inferInstanceAs (Decidable (_ ∧ _))

/-- `submit`. -/
def submit (c : SubmitCall Policy) : Run Policy :=
  let found := getForUser R.store w.rows (c.actorLabel.getD "")
  if !w.acceptingNew then ⟨[], .error (.exn .shuttingDown)⟩
  else if looksUp R c.actorLabel ∧ found = .error .cancelledError then
    -- an `except Exception` lets it through
    ⟨[], .error (.exn .cancelledError)⟩
  else
    match settleCredentials R.cfg c.args found.toOption with
    | .error e => ⟨[], .error (.exn e)⟩
    | .ok creds => submitSettled R w c creds

/-- What `retry` reads of the row of the original session. -/
structure OriginalRow where
  specJson : Obj
  owner : Option String
  description : Option String

/-- A text, unless it is missing or empty. -/
def nonEmpty (v : Option String) : Option String := v.filter (· ≠ "")

/-- The arguments that `retry` calls `submit` with. -/
def retryCall (sid : String) (actor actorRole : Option String) (original : OriginalRow)
    (spec : SpecRecord Policy) : SubmitCall Policy where
  spec := spec
  owner := some (((nonEmpty actor).or (nonEmpty original.owner)).getD "anon")
  actorLabel := actor
  actorRole := actorRole
  description := some ((nonEmpty original.description).getD s!"Retry of {sid}")
  parentSessionId := some sid

/-- `retry`, where `original` is what `get_session` comes back with. -/
def retry (original : Except Exn (Option OriginalRow)) (sid : String)
    (actor actorRole : Option String) : Run Policy :=
  match original with
  | .error e => ⟨[], .error (.exn e)⟩
  | .ok none => ⟨[], .error (.retry .sessionNotFound)⟩
  | .ok (some original) =>
      match retrySpec R.builtins R.defaultTimeoutS sid original.specJson with
      | .error e => ⟨[], .error (.retry e)⟩
      | .ok spec =>
          let call := retryCall sid actor actorRole original spec
          let submitted := submit R w call
          match submitted.result with
          | .error e => ⟨submitted.effects, .error e⟩
          | .ok newSid =>
              let audit := audited R (call.owner.getD "") "session_retry" newSid w.retryAudit
              ⟨submitted.effects ++ audit.1,
                match audit.2 with
                | some e => .error (.exn e)
                | none => .ok newSid⟩

end Calls

/-! ### What the executor is handed -/

/-- A call of one of the two kinds. -/
inductive Request (Policy : Type) where
  | submit (call : SubmitCall Policy)
  | retry (original : Except Exn (Option OriginalRow)) (sid : String)
      (actor actorRole : Option String)

namespace Request

variable {Policy : Type}

/-- The run of the call. -/
def run (R : Relay) (w : World) : Request Policy → Run Policy
  | submit call => Attribution.submit R w call
  | retry original sid actor actorRole => Attribution.retry R w original sid actor actorRole

lemma run_retry (R : Relay) (w : World) (original : Except Exn (Option OriginalRow)) (sid : String)
    (actor actorRole : Option String) :
    @run Policy R w (retry original sid actor actorRole)
      = Attribution.retry R w original sid actor actorRole := rfl

/-- What strict mode reads of the call: the credentials of its body, and who makes it. -/
def args : Request Policy → SubmitArgs
  | submit call => { call.args with owner := none }
  | retry _ _ actor actorRole => { actorLabel := actor, actorRole := actorRole }

/-- The credentials of the body. -/
def body (q : Request Policy) : Credentials := q.args.credentials

/-- The label that the rows are looked up for. -/
def actor (q : Request Policy) : String := q.args.actorLabel.getD ""

/-- The stored rows of the actor; without a label there are none. -/
def secrets (w : World) (q : Request Policy) : Except Exn (List Secret) :=
  if q.actor = "" then .ok [] else w.rows.map fun rows => rowsOf rows q.actor

/-- Strict mode rejects the call. -/
def Rejected (R : Relay) (w : World) (q : Request Policy) : Prop :=
  ∃ e, settleCredentials R.cfg q.args (getForUser R.store w.rows q.actor).toOption = .error e

end Request

/-- The keywords that an executor factory takes: older ones do without the context. -/
inductive FactorySignature where
  | runtimeCtx
  | controlChannel
  | positional
  deriving DecidableEq

/-- The contexts that `_start_executor` hands over: to the factory, and to `executor.start`. -/
def startExecutor (f : FactorySignature) (ctx : RuntimeContext) : List RuntimeContext :=
  if f = .runtimeCtx then [ctx, ctx] else [ctx]

/-- The credentials that an executor is handed in the task of the session. -/
def Effect.handed {Policy : Type} (f : FactorySignature) : Effect Policy → List Credentials
  | .task _ _ ctx => (startExecutor f ctx).map (·.credentials)
  | _ => []

/-- The credentials that the executor of a run is handed. -/
def Run.handed {Policy : Type} (f : FactorySignature) (r : Run Policy) : List Credentials :=
  r.effects.flatMap (Effect.handed f)

/-- The values of the selected rows. -/
def readAll (store : CredentialsStore) (secrets : Except Exn (List Secret)) :
    Except Exn Credentials :=
  match store.fernet with
  | none => .ok []
  | some decrypt => secrets.bind fun rows => rows.foldlM (readSecret store decrypt) []

/-- What is merged of the rows: nothing if there is no store or the lookup fails. -/
def storedCredentials (R : Relay) (secrets : Except Exn (List Secret)) : Credentials :=
  if R.cfg.hasCredentialsStore then (readAll R.store secrets).toOption.getD [] else []

/-- The credentials of a call, from the stored ones and those of the body. -/
def attributed (stored body : Credentials) : Credentials :=
  if stored = [] then body else mergeCredentials stored body

section Handed

variable {Policy : Type} {R : Relay} {w : World} {f : FactorySignature} {c : SubmitCall Policy}
  {q : Request Policy} {creds x : Credentials}

/-- The lookup reads the rows of the label only. -/
lemma getForUser_eq (store : CredentialsStore) (q : Request Policy) :
    getForUser store w.rows q.actor = readAll store (q.secrets w) := by
  rw [getForUser, readAll, Request.secrets]
  cases store.fernet with
  | none => rfl
  | some decrypt =>
      by_cases h : q.actor = ""
      · simp only [h, if_true]
        rfl
      · simp only [h, if_false]
        cases w.rows <;> rfl

/-- What the lookup finds goes under the body. -/
lemma foundCredentials_eq
    (h : foundCredentials R.cfg q.args (getForUser R.store w.rows q.actor).toOption = .ok creds) :
    creds = attributed (storedCredentials R (q.secrets w)) q.body := by
  rw [getForUser_eq] at h
  unfold foundCredentials at h
  rw [storedCredentials, attributed, Request.body]
  by_cases hlook : R.cfg.hasCredentialsStore = true ∧ q.args.actorLabel.getD "" ≠ ""
  · rw [if_pos hlook] at h
    rw [if_pos hlook.1]
    cases hread : readAll R.store (q.secrets w) with
    | ok rows =>
        rw [hread] at h
        exact (Except.ok.inj h).symm
    | error e =>
        rw [hread] at h
        simp only [Except.toOption] at h
        split_ifs at h
        exact (Except.ok.inj h).symm
  · -- there is no store, or no label
    rw [if_neg hlook] at h
    obtain rfl := Except.ok.inj h
    by_cases hstore : R.cfg.hasCredentialsStore = true
    · have hactor : q.actor = "" := by
        by_contra hne
        exact hlook ⟨hstore, hne⟩
      have hread : readAll R.store (q.secrets w) = .ok [] := by
        rw [readAll, Request.secrets, if_pos hactor]
        cases R.store.fernet <;> rfl
      rw [if_pos hstore, hread]
      rfl
    · rw [if_neg hstore]
      rfl

lemma settled_eq
    (h : settleCredentials R.cfg q.args (getForUser R.store w.rows q.actor).toOption = .ok creds) :
    creds = attributed (storedCredentials R (q.secrets w)) q.body := by
  rw [settleCredentials] at h
  split at h
  · cases h
  · rename_i creds' hfound
    split_ifs at h
    obtain rfl := Except.ok.inj h
    exact foundCredentials_eq hfound

lemma handed_audited {actor action targetId : String} {raised : Option Exn} :
    (@audited Policy R actor action targetId raised).1.flatMap (Effect.handed f) = [] := by
  rw [audited]
  split_ifs <;> rfl

/-- The session runs with what was settled. -/
lemma handed_submitSettled (h : x ∈ (submitSettled R w c creds).handed f) : x = creds := by
  have htask : x ∈ (startExecutor f { c.ctx with credentials := creds }).map (·.credentials) →
      x = creds := by
    intro hx
    rw [startExecutor] at hx
    split_ifs at hx <;> simpa using hx
  refine htask ?_
  rw [submitSettled] at h
  split at h
  · exact absurd h List.not_mem_nil
  · simp only [Run.handed, List.flatMap_cons, handed_audited] at h
    exact absurd h List.not_mem_nil
  · simp only [Run.handed, List.cons_append, List.flatMap_cons, List.flatMap_append,
      handed_audited] at h
    exact absurd h List.not_mem_nil
  · simpa only [Run.handed, List.cons_append, List.flatMap_cons, List.flatMap_append,
      handed_audited, Effect.handed, List.flatMap_nil, List.append_nil, List.nil_append] using h

/-- **What the executor is handed**, in terms of the call. -/
theorem handed_eq (h : x ∈ (q.run R w).handed f) :
    x = attributed (storedCredentials R (q.secrets w)) q.body := by
  have hsubmit : ∀ {c : SubmitCall Policy}, c.ctx.credentials = q.body →
      c.actorLabel = q.args.actorLabel → c.actorRole = q.args.actorRole →
      x ∈ (submit R w c).handed f →
        x = attributed (storedCredentials R (q.secrets w)) q.body := by
    intro c hbody hactor hrole hx
    have hsettle : settleCredentials R.cfg c.args = settleCredentials R.cfg q.args := by
      funext found
      unfold settleCredentials foundCredentials Manager.strictRefuses SubmitCall.args
      rw [hbody, hactor, hrole, Request.body]
    rw [submit] at hx
    split_ifs at hx
    · exact absurd hx List.not_mem_nil
    · exact absurd hx List.not_mem_nil
    · rw [hsettle, hactor] at hx
      split at hx
      · exact absurd hx List.not_mem_nil
      · rename_i creds hcreds
        rw [handed_submitSettled hx]
        exact settled_eq hcreds
  cases q with
  | submit c => exact hsubmit rfl rfl rfl h
  | retry original sid actor actorRole =>
      rw [Request.run_retry] at h
      unfold Attribution.retry at h
      split at h
      · exact absurd h List.not_mem_nil
      · exact absurd h List.not_mem_nil
      · split at h
        · exact absurd h List.not_mem_nil
        · rename_i original _ spec _
          refine @hsubmit (retryCall sid actor actorRole original spec) rfl rfl rfl ?_
          simp only at h
          split at h
          · exact h
          · simpa only [Run.handed, List.flatMap_append, handed_audited, List.append_nil] using h

/-- A rejected call of `submit` has no effects. -/
lemma effects_of_rejected {e : Exn} (h : settleCredentials R.cfg c.args
    (getForUser R.store w.rows (c.actorLabel.getD "")).toOption = .error e) :
    (submit R w c).effects = [] ∧ ∃ e, (submit R w c).result = .error e := by
  rw [submit]
  split_ifs
  · exact ⟨rfl, _, rfl⟩
  · exact ⟨rfl, _, rfl⟩
  · rw [h]
    exact ⟨rfl, _, rfl⟩

end Handed

/-- **Credential attribution**: the executor is handed the values of the body over those of the
actor's rows, key by key; two calls with the same body and the same rows of their actors hand over
the same, whatever else they and the tables have; and a call that strict mode rejects writes,
publishes and starts nothing. -/
theorem credentials_attributed {Policy : Type} (R : Relay) (f : FactorySignature) :
    (∀ (w : World) (q : Request Policy), ∀ x ∈ (q.run R w).handed f, ∀ k,
      x.lookup k = (q.body.lookup k).or ((storedCredentials R (q.secrets w)).lookup k)) ∧
    (∀ (w w' : World) (q q' : Request Policy), q.body = q'.body → q.secrets w = q'.secrets w' →
      ∀ x ∈ (q.run R w).handed f, ∀ y ∈ (q'.run R w').handed f, x = y) ∧
    ∀ (w : World) (q : Request Policy), q.Rejected R w →
      (q.run R w).effects = [] ∧ ∃ e, (q.run R w).result = .error e := by
  refine ⟨fun w q x hx k => ?_, fun w w' q q' hbody hrows x hx y hy => ?_, fun w q h => ?_⟩
  · rw [handed_eq hx, attributed]
    split_ifs with hstored
    · rw [hstored, List.lookup_nil, Option.or_none]
    · exact lookup_mergeCredentials
  · rw [handed_eq hx, handed_eq hy, hbody, hrows]
  · obtain ⟨e, he⟩ := h
    cases q with
    | submit c => exact effects_of_rejected he
    | retry original sid actor actorRole =>
        rw [Request.run_retry]
        unfold Attribution.retry
        split
        · exact ⟨rfl, _, rfl⟩
        · exact ⟨rfl, _, rfl⟩
        · split
          · exact ⟨rfl, _, rfl⟩
          · rename_i original _ spec _
            have hrejected : settleCredentials R.cfg
                (retryCall sid actor actorRole original spec).args
                (getForUser R.store w.rows (actor.getD "")).toOption = .error e := he
            obtain ⟨heffects, e', hresult⟩ := effects_of_rejected hrejected
            simp only [hresult]
            exact ⟨heffects, _, rfl⟩

/-- A relay in strict mode, with a key that decrypts every value to itself. -/
def strictRelay : Relay where
  cfg := strictConfig
  store := { fernet := some .text, keyFingerprint := some "f1" }
  redactor := .new id [] []
  builtins := .plain
  defaultTimeoutS := 1800
  hasAudit := true

/-- The rows of two users, one of them encrypted with another key. -/
def twoUsers : World where
  rows := .ok [⟨"alice", "ANTHROPIC_API_KEY", "k-alice", "f1"⟩,
    ⟨"bob", "ANTHROPIC_API_KEY", "k-bob", "f1"⟩, ⟨"bob", "ANTHROPIC_BASE_URL", "old", "f0"⟩]
  sid := "s2"

/-- Bob retries a session of Alice's and runs with his own key. -/
example : (Request.run strictRelay twoUsers (@Request.retry Unit
    (.ok (some ⟨taggedSubmission.spec.toJsonSafe, some "alice", none⟩)) "s1" (some "bob")
    (some "submitter"))).handed .positional = [[("ANTHROPIC_API_KEY", "k-bob")]] := by decide

end GgRelay.Attribution
