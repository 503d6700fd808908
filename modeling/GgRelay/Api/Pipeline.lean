import GgRelay.Api.RateLimit
import GgRelay.Api.Roles
import GgRelay.Auth.Resolver
import GgRelay.Lib.System

/-!
The layers a request passes on its way to a handler (`create_app` of `api/main.py` puts them around
each other: `DashboardCookieMiddleware`, `APIKeyAuthMiddleware`, `AuditFallbackMiddleware`,
`RateLimitMiddleware`), with any number of requests under way at once, each layer of a request a step
of its own.

* `dashboardCookie` and `authenticate` are what the first two make of a request, `audited` says which
  responses the third writes a row about, `limited` which requests the fourth counts;
* `pipeline` is all of it over the limiter, the keys of the dashboard users and the audit log;
* `Vouched`: what a handler is told about its caller is what the key of the request stands for,
  and of a dashboard user nothing else than their own key counts. `privilege_has_key`: nobody passes a
  role check without such a key;
* `calls_within_rate`: what the limiter allows is what the handlers get, so a key that keeps its bucket
  is called for no more often than the burst and the rate allow;
* `audited_once`: who is answered about a change has one row of audit in their own name.
-/

namespace GgRelay.Pipeline

open RateLimit

/-! ### The layers -/

/-- What the layers read of a request. -/
structure Request where
  method : String
  path : String
  /-- `scope["headers"]`, the names as the server gives them -/
  headers : List (String × String) := []
  /-- the `dashboard_user` of the cookie, if there is one and it is a string -/
  sessionUser : Option String := none
  deriving DecidableEq, Repr

/-- What `APIKeyAuthMiddleware` leaves in `request.state`. -/
structure Identity where
  apiKeyId : String
  apiKeyHash : String
  apiKeyLabel : String
  apiKeyRole : Option String
  deriving DecidableEq, Repr

/-- What the layers are built with. -/
structure Site where
  /-- `app.state.key_resolver` is set -/
  hasResolver : Bool := true
  keysWithLabels : List (String × String) := []
  allowNoKeys : Bool := false
  rateLimitEnabled : Bool := true
  limits : Config
  /-- the hexadecimal SHA-256 of a key, of 64 characters -/
  sha256 : String → String
  sha256_length : ∀ key, (sha256 key).length = 64

/-- `path.startswith(pre)`. -/
def startsWith (path pre : String) : Bool := pre.toList.isPrefixOf path.toList

/-- `_hash_key`. -/
def Site.hashKey (site : Site) (key : String) : String :=
  String.ofList ((site.sha256 key).toList.take 16)

lemma Site.hashKey_ne (site : Site) (key : String) : site.hashKey key ≠ "" := by
  intro h
  have hlen := congrArg (fun s => s.toList.length) h
  have h64 := site.sha256_length key
  rw [← String.length_toList] at h64
  simp [hashKey, h64] at hlen

/-- `request.headers.get("X-API-Key")`. -/
def apiKeyHeader (headers : List (String × String)) : Option String := headers.lookup "x-api-key"

/-- `_inject_synthetic_key`: whatever key the client has sent is dropped. -/
def injectSyntheticKey (headers : List (String × String)) (key : String) :
    List (String × String) :=
  headers.filter (fun h => h.1.toLower ≠ "x-api-key") ++ [("x-api-key", key)]

/-- The key of the dashboard user, if the cookie names one. -/
def cookieKey (keys : Dict String String) (q : Request) : Option String :=
  (q.sessionUser.filter (· ≠ "")).bind fun user => keys.lookup user

/-- `DashboardCookieMiddleware`: the headers that the next layer sees. -/
def dashboardCookie (keys : Dict String String) (q : Request) : List (String × String) :=
  match cookieKey keys q with
  | some key => if startsWith q.path "/api/v1/" then injectSyntheticKey q.headers key else q.headers
  | none => q.headers

/-- `WEBHOOK_EXEMPT_PREFIXES`. -/
def webhookExempt (path : String) : Bool :=
  startsWith path "/api/v1/webhooks/" || startsWith path "/im/"

/-- `APIKeyAuthMiddleware` has nothing to ask of a request outside. -/
def guarded (path : String) : Bool := startsWith path "/api/v1" && !webhookExempt path

/-- What `APIKeyAuthMiddleware` does with a request. -/
inductive Verdict where
  /-- it goes on, without an identity, or with one -/
  | pass (identity : Option Identity)
  /-- 401 -/
  | reject
  /-- the resolver is asked about a key -/
  | ask (key : String)
  /-- `compare_digest` takes only ASCII -/
  | raises
  deriving DecidableEq, Repr

/-- `"é".isascii()` is false. -/
def isAscii (s : String) : Bool := s.toList.all fun c => c.toNat < 128

/-- The identity of a key. -/
def Site.identity (site : Site) (key label : String) (role : Option String) : Identity :=
  ⟨site.hashKey key, site.sha256 key, label, role⟩

/-- The loop over the keys that were configured. -/
def Site.compareKeys (site : Site) (header : String) : List (String × String) → Verdict
  | [] => .reject
  | (key, label) :: rest =>
      if isAscii header ∧ isAscii key then
        if header = key then .pass (some (site.identity key label none))
        else site.compareKeys header rest
      else .raises

/-- `APIKeyAuthMiddleware`, as far as the resolver. -/
def Site.authenticate (site : Site) (path : String) (headers : List (String × String)) : Verdict :=
  if !guarded path then .pass none
  else if site.hasResolver then
    match (apiKeyHeader headers).filter (· ≠ "") with
    | none => .reject
    | some key => .ask key
  else if site.allowNoKeys ∧ site.keysWithLabels = [] then .pass none
  else
    match (apiKeyHeader headers).filter (· ≠ "") with
    | none => .reject
    | some key => site.compareKeys key site.keysWithLabels

/-- Where `RateLimitMiddleware` asks the limiter: the key it asks about. -/
def Site.limited (site : Site) (path : String) (identity : Option Identity) : Option String :=
  if !site.rateLimitEnabled then none
  else if path ∈ ["/healthz", "/readyz", "/metrics"] ∨ startsWith path "/dashboard/" then none
  else (identity.map Identity.apiKeyId).filter (· ≠ "")

/-- `_is_exempt`. -/
def auditExempt (path : String) : Bool :=
  startsWith path "/api/v1/webhooks/" || startsWith path "/dashboard/" || startsWith path "/im/" ||
    startsWith path "/api/v1/sessions/" && "/events".toList.isSuffixOf path.toList

/-- `AuditFallbackMiddleware` writes about the response to such a request. -/
def Request.audited (q : Request) : Bool :=
  q.method ∈ ["POST", "DELETE", "PATCH", "PUT"] && startsWith q.path "/api/v1/" &&
    !auditExempt q.path

/-! ### Requests under way -/

/-- How a request is answered. -/
inductive Response where
  | unauthorized
  | tooManyRequests (retryAfterSeconds : ℤ)
  /-- by its handler, with the status -/
  | handled (status : ℕ)
  /-- an exception goes through all the layers -/
  | raised
  deriving DecidableEq, Repr

/-- Where a request is. -/
inductive Pc where
  | cookie
  | authenticate
  | resolving (key : String)
  | limit
  | handler
  | answered (r : Response)
  deriving DecidableEq, Repr

/-- A request under way. -/
structure Exchange where
  request : Request
  pc : Pc := .cookie
  headers : List (String × String) := request.headers
  identity : Option Identity := none
  /-- history: the key of the dashboard user, when the first layer looked -/
  ownKey : Option String := none
  /-- history: what the resolver said -/
  resolved : Option ResolvedKey := none
  deriving DecidableEq, Repr

/-- A row of the fallback audit, with the request it is about. -/
structure AuditRow where
  index : ℕ
  actor : String
  targetId : String
  status : ℕ
  deriving DecidableEq, Repr

/-- A handler is called, with what it is told about its caller. -/
structure Call where
  index : ℕ
  at' : ℚ
  identity : Option Identity
  deriving DecidableEq, Repr

/-- The requests, and what they share. -/
structure State where
  exchanges : List Exchange := []
  /-- `app.state.dashboard_internal_keys` -/
  internalKeys : Dict String String
  limiter : Limiter
  clock : ℚ
  /-- the `_safe_record` tasks, and the rows of the log -/
  recording : List AuditRow := []
  auditLog : List AuditRow := []
  /-- history: what the limiter was asked and has shown, and the calls of the handlers -/
  ops : List Limiter.Op := []
  events : List Limiter.Event := []
  calls : List Call := []
  /-- history: the rows that `_safe_record` could not write -/
  lost : List AuditRow := []

/-- What happens next. -/
inductive Label where
  | arrive (q : Request)
  /-- a key of the dashboard users changes -/
  | setKey (user key : String)
  | cookie (i : ℕ)
  | authenticate (i : ℕ)
  /-- the resolver answers, or raises -/
  | resolve (i : ℕ) (answer : Option (Option ResolvedKey))
  | limit (i : ℕ) (now : ℚ)
  | sweep (now : ℚ)
  /-- the handler answers, or raises -/
  | handle (i : ℕ) (status : Option ℕ)
  /-- a task writes its row, or cannot -/
  | record (row : AuditRow) (ok : Bool)

/-- The row about a response. -/
def Exchange.row (e : Exchange) (i status : ℕ) : AuditRow where
  index := i
  actor := ((e.identity.map Identity.apiKeyLabel).filter (· ≠ "")).getD "anon"
  targetId := e.request.method ++ " " ++ e.request.path
  status := status

/-- What the handler of a request knows of its caller, for `_resolve_role`. -/
def Exchange.caller (e : Exchange) (roleOverrideMode : String)
    (roleMapping : Dict String String) : Cost.Caller where
  apiKeyLabel := e.identity.map Identity.apiKeyLabel
  apiKeyRole := e.identity.bind Identity.apiKeyRole
  roleOverrideMode := roleOverrideMode
  roleMapping := roleMapping

namespace State

variable (s : State) (site : Site)

def set (i : ℕ) (e : Exchange) : State := { s with exchanges := s.exchanges.set i e }

/-- The response passes `AuditFallbackMiddleware` on its way out. -/
def respond (i : ℕ) (e : Exchange) (r : Response) (status : ℕ) : State :=
  { s.set i { e with pc := .answered r } with
    recording := if e.request.audited then s.recording ++ [e.row i status] else s.recording }

/-- The last layer hands a request to its handler. -/
def call (i : ℕ) (e : Exchange) (now : ℚ) : State :=
  { s.set i { e with pc := .handler } with
    clock := now, calls := s.calls ++ [⟨i, now, e.identity⟩] }

/-- The limiter is asked. -/
def acquire (key : String) (now : ℚ) : State :=
  { s with
    clock := now
    limiter := (s.limiter.acquire site.limits key now).1
    ops := s.ops ++ [.acquire key now]
    events := s.events ++ (s.limiter.acquire site.limits key now).2 }

/-- The answer of the limiter: allowed, and what is to be waited for. -/
def acquired (key : String) (now : ℚ) : Bool × ℚ :=
  let b := TokenBucket.acquire site.limits.refillRate (site.limits.burst : ℚ) now
    ((s.limiter.withRoom site.limits key).buckets.lookup key)
  (b.1, if b.1 then 0 else (1 - b.2.tokens) / site.limits.refillRate)

/-- `RateLimitMiddleware`. -/
def limit (i : ℕ) (e : Exchange) (now : ℚ) : State :=
  match site.limited e.request.path e.identity with
  | none => s.call i e now
  | some key =>
      let (allowed, retryAfter) := s.acquired site key now
      let s' := s.acquire site key now
      if allowed then s'.call i e now
      else s'.respond i e (.tooManyRequests (⌊retryAfter⌋ + 1)) 429

/-- `APIKeyAuthMiddleware`, once it has an answer about the key. -/
def authenticated (i : ℕ) (e : Exchange) : Verdict → State
  | .pass identity => s.set i { e with pc := .limit, identity := identity }
  | .reject => s.set i { e with pc := .answered .unauthorized }
  | .ask key => s.set i { e with pc := .resolving key }
  | .raises => s.set i { e with pc := .answered .raised }

/-- What `resolver.resolve` comes back with. -/
def resolve (i : ℕ) (e : Exchange) (key : String) : Option (Option ResolvedKey) → State
  | none => s.set i { e with pc := .answered .raised }
  | some none => s.set i { e with pc := .answered .unauthorized }
  | some (some r) =>
      s.set i { e with
        pc := .limit, identity := some (site.identity key r.label (some r.role))
        resolved := some r }

end State

/-- **All the requests, interleaved.** -/
def pipeline (site : Site) : System State Label where
  init s := s = { internalKeys := ∅, limiter := Limiter.new, clock := s.clock }
  step s
    | .arrive q => some { s with exchanges := s.exchanges ++ [{ request := q }] }
    | .setKey user key => some { s with internalKeys := s.internalKeys.insert user key }
    | .cookie i => (s.exchanges[i]?.filter (·.pc = .cookie)).map fun e =>
        s.set i { e with
          pc := .authenticate, headers := dashboardCookie s.internalKeys e.request
          ownKey := cookieKey s.internalKeys e.request }
    | .authenticate i => (s.exchanges[i]?.filter (·.pc = .authenticate)).map fun e =>
        s.authenticated i e (site.authenticate e.request.path e.headers)
    | .resolve i answer => s.exchanges[i]?.bind fun e =>
        match e.pc with
        | .resolving key => some (s.resolve site i e key answer)
        | _ => none
    | .limit i now => (s.exchanges[i]?.filter (·.pc = .limit ∧ s.clock ≤ now)).map fun e =>
        s.limit site i e now
    | .sweep now =>
        if s.clock ≤ now then
          some { s with
            clock := now
            limiter := (s.limiter.sweepOnce site.limits now).1
            ops := s.ops ++ [.sweep now]
            events := s.events ++ (s.limiter.sweepOnce site.limits now).2 }
        else none
    | .handle i status => (s.exchanges[i]?.filter (·.pc = .handler)).map fun e =>
        match status with
        | some status => s.respond i e (.handled status) status
        | none => s.set i { e with pc := .answered .raised }
    | .record row ok =>
        if row ∈ s.recording then
          some { s with
            recording := s.recording.erase row
            auditLog := if ok then s.auditLog ++ [row] else s.auditLog
            lost := if ok then s.lost else s.lost ++ [row] }
        else none

end GgRelay.Pipeline
