import GgRelay.Lib.Dict
import GgRelay.Session.Manager.Calls

/-!
The environment the runner core hands to the SDK (`session/client.py`, `_make_runner_core`), and
the credentials `SessionManager.submit` lets through to it.

* `settleCredentials` is the merge and the strict check of `submit`, `submitStep_creates_iff`
  finds it in the coroutine;
* `sdkEnv` is the assembly: the host's variables, the credentials, `extra_env`;
* `auth_isolated_iff` says when the host has no influence on the Anthropic credentials,
  `operator_key_reaches_sdk` how it has one.
-/

namespace GgRelay

/-! ### The credentials of a submission -/

/-- The merge of the stored rows under the credentials of the body; `found` is what
`get_for_user` returns, `none` if it raises. -/
def foundCredentials (cfg : ManagerConfig) (args : SubmitArgs) (found : Option Credentials) :
    Except Exn Credentials :=
  if cfg.hasCredentialsStore ∧ args.actorLabel.getD "" ≠ "" then
    match found with
    | some rows =>
        .ok (if rows = [] then args.credentials else mergeCredentials rows args.credentials)
    | none =>
        if cfg.requirePerUserCredentials then .error .credentialsLookupUnavailable
        else .ok args.credentials
  else .ok args.credentials

/-- The credentials `submit` goes on with, or its refusal. -/
def settleCredentials (cfg : ManagerConfig) (args : SubmitArgs) (found : Option Credentials) :
    Except Exn Credentials :=
  match foundCredentials cfg args found with
  | .error e => .error e
  | .ok creds =>
      if Manager.strictRefuses cfg { args with credentials := creds } then .error .missingCredentials
      else .ok creds

/-- Strict mode lets nobody but an administrator through without one of the two secrets. -/
lemma settled_isComplete {cfg : ManagerConfig} {args : SubmitArgs} {found : Option Credentials}
    {creds : Credentials} (hs : cfg.requirePerUserCredentials = true)
    (hr : args.actorRole ≠ some "admin") (h : settleCredentials cfg args found = .ok creds) :
    credentialBundleIsComplete creds = true := by
  rw [settleCredentials] at h
  split at h
  · cases h
  · split at h
    · cases h
    · rename_i hn
      cases h
      simpa [Manager.strictRefuses, hs, hr] using hn

/-- A `submit` whose lookup is over goes on to `create_session` with the settled credentials, or
not at all. -/
theorem submitStep_creates_iff {cfg : ManagerConfig} {m m' : Manager} {cid : CallId}
    {args : SubmitArgs} {rows creds : Credentials} (hred : args.redactable = true)
    (hstore : cfg.hasCredentialsStore = true) (hlabel : args.actorLabel.getD "" ≠ "")
    (h : m.submitStep cfg cid args .lookup (.credentials rows) = some m') :
    (∃ sid, m'.calls cid = .submit { args with credentials := creds } (.create sid)) ↔
      settleCredentials cfg args (some rows) = .ok creds := by
  obtain ⟨apiKeyId, owner, actorLabel, actorRole, body, wire, redactable⟩ := args
  subst hred
  simp only [Manager.submitStep, Option.some.injEq] at h
  subst h
  rw [settleCredentials, foundCredentials, if_pos (And.intro hstore hlabel)]
  simp only [Manager.submitLookedUp, Manager.setCall_calls, Function.update_self,
    Manager.submitCheck, if_true]
  generalize (if rows = [] then _ else mergeCredentials rows _) = merged
  by_cases hs : Manager.strictRefuses cfg
      ⟨apiKeyId, owner, actorLabel, actorRole, merged, wire, true⟩ = true
  · simp [hs]
  · simp only [if_neg hs, Call.submit.injEq, SubmitPc.create.injEq, Except.ok.injEq]
    constructor
    · rintro ⟨sid, hargs, -⟩
      exact congrArg SubmitArgs.credentials hargs
    · rintro rfl
      exact ⟨_, rfl, rfl⟩

/-! ### The environment of the SDK -/

/-- `SessionRuntimeContext`. -/
structure RuntimeContext where
  credentials : Credentials := []
  traceId : String := ""

/-- `_SDK_HOST_ENV_PASSTHROUGH`. -/
def sdkHostEnvPassthrough : List String :=
  ["ANTHROPIC_API_KEY", "ANTHROPIC_AUTH_TOKEN", "ANTHROPIC_BASE_URL", "ANTHROPIC_MODEL",
    "ANTHROPIC_DEFAULT_HAIKU_MODEL", "ANTHROPIC_DEFAULT_SONNET_MODEL",
    "ANTHROPIC_DEFAULT_OPUS_MODEL", "ANTHROPIC_DEFAULT_HAIKU_MODEL_NAME",
    "ANTHROPIC_DEFAULT_SONNET_MODEL_NAME", "ANTHROPIC_DEFAULT_OPUS_MODEL_NAME",
    "CLAUDE_CODE_SUBAGENT_MODEL", "AWS_ACCESS_KEY_ID", "AWS_SECRET_ACCESS_KEY",
    "AWS_SESSION_TOKEN", "AWS_REGION", "GOOGLE_APPLICATION_CREDENTIALS", "CLOUD_ML_REGION",
    "ANTHROPIC_VERTEX_PROJECT_ID"]

/-- `os.environ`. -/
abbrev HostEnv := String → Option String

/-- The variables of the host that are passed on: those that are set and not empty. -/
def hostVars (host : HostEnv) : List (String × String) :=
  sdkHostEnvPassthrough.filterMap fun k => ((host k).filter (· ≠ "")).map fun v => (k, v)

/-- The arguments of `_make_runner_core` that its environment is made of. -/
structure RunnerArgs where
  ctx : Option RuntimeContext
  extraEnv : List (String × String) := []
  installRoot : Option String := none
  subagentModel : Option String := none

/-- The `env` of `ClaudeCodeOptions`. -/
def sdkEnv (host : HostEnv) (a : RunnerArgs) : Dict String String :=
  let env : Dict String String := Dict.update ∅ (hostVars host)
  let env := a.ctx.elim env fun c => env.update c.credentials
  let env := env.update a.extraEnv
  let env := match a.ctx with
    | some c => if c.traceId = "" then env else env.insert "RELAY_TRACE_ID" c.traceId
    | none => env
  -- `env.setdefault`
  let env := match a.installRoot with
    | some root =>
        if "RELAY_INSTALL_DIR_ROOT" ∈ env then env else env.insert "RELAY_INSTALL_DIR_ROOT" root
    | none => env
  match a.subagentModel with
  | some model => if model = "" then env else env.insert "CLAUDE_CODE_SUBAGENT_MODEL" model
  | none => env

/-- The Anthropic authentication variables. -/
def authVariables : List String := ["ANTHROPIC_API_KEY", "ANTHROPIC_AUTH_TOKEN"]

/-- The host has no influence on this variable of the SDK. -/
def Isolated (a : RunnerArgs) (k : String) : Prop :=
  ∀ host host' : HostEnv, (sdkEnv host a).lookup k = (sdkEnv host' a).lookup k

section SdkEnv

variable {a : RunnerArgs} {c : RuntimeContext} {k : String}

/-- The relay's own markers are no authentication variables. -/
lemma lookup_sdkEnv (hk : k ∈ authVariables) (hc : a.ctx = some c) (host : HostEnv) :
    (sdkEnv host a).lookup k
      = (Dict.update (Dict.update (Dict.update ∅ (hostVars host)) c.credentials)
          a.extraEnv).lookup k := by
  have hne : k ≠ "RELAY_TRACE_ID" ∧ k ≠ "RELAY_INSTALL_DIR_ROOT" ∧
      k ≠ "CLAUDE_CODE_SUBAGENT_MODEL" := by
    simp only [authVariables, List.mem_cons, List.not_mem_nil, or_false] at hk
    rcases hk with rfl | rfl <;> decide
  simp only [sdkEnv, hc, Option.elim_some]
  repeat' split
  all_goals simp [AList.lookup_insert_ne, hne]

/-- A variable that the submission sets comes from the submission. -/
lemma lookup_of_set (hk : k ∈ authVariables) (hc : a.ctx = some c)
    (h : k ∈ c.credentials.map Prod.fst ∨ k ∈ a.extraEnv.map Prod.fst) (host : HostEnv) :
    (sdkEnv host a).lookup k
      = (Dict.update (Dict.update ∅ c.credentials) a.extraEnv).lookup k := by
  rw [lookup_sdkEnv hk hc]
  by_cases he : k ∈ a.extraEnv.map Prod.fst
  · exact Dict.lookup_update_of_mem he _ _
  · rw [Dict.lookup_update_of_not_mem he, Dict.lookup_update_of_not_mem he]
    exact Dict.lookup_update_of_mem (h.resolve_right he) _ _

/-- A variable that it leaves unset is the host's. -/
lemma lookup_of_unset (hk : k ∈ authVariables) (hc : a.ctx = some c)
    (hn : k ∉ c.credentials.map Prod.fst) (he : k ∉ a.extraEnv.map Prod.fst) (host : HostEnv) :
    (sdkEnv host a).lookup k = (host k).filter (· ≠ "") := by
  rw [lookup_sdkEnv hk hc, Dict.lookup_update_of_not_mem he, Dict.lookup_update_of_not_mem hn]
  have hpass : k ∈ sdkHostEnvPassthrough := by
    simp only [authVariables, List.mem_cons, List.not_mem_nil, or_false] at hk
    rcases hk with rfl | rfl <;> decide
  refine (Dict.lookup_update_filterMap (fun k => (host k).filter (· ≠ "")) _ _ _).trans ?_
  rw [if_pos hpass, AList.lookup_empty, Option.or_none]

/-- The host has no influence on an authentication variable exactly if the submission sets it. -/
lemma isolated_iff (hk : k ∈ authVariables) (hc : a.ctx = some c) :
    Isolated a k ↔ k ∈ c.credentials.map Prod.fst ∨ k ∈ a.extraEnv.map Prod.fst := by
  constructor
  · intro h
    by_contra hn
    rw [not_or] at hn
    have hh := h (fun _ => some "x") fun _ => none
    rw [lookup_of_unset hk hc hn.1 hn.2, lookup_of_unset hk hc hn.1 hn.2] at hh
    simp at hh
  · intro h host host'
    rw [lookup_of_set hk hc h, lookup_of_set hk hc h]

end SdkEnv

/-- **The host has no influence on the Anthropic credentials of an accepted submission exactly
if the submission sets both variables**; they are its own then, and it always sets one. -/
theorem auth_isolated_iff {cfg : ManagerConfig} {args : SubmitArgs} {found : Option Credentials}
    {creds : Credentials} {a : RunnerArgs} {traceId : String}
    (hs : cfg.requirePerUserCredentials = true) (hr : args.actorRole ≠ some "admin")
    (h : settleCredentials cfg args found = .ok creds) (hc : a.ctx = some ⟨creds, traceId⟩) :
    ((∀ k ∈ authVariables, Isolated a k) ↔
      ∀ k ∈ authVariables, k ∈ creds.map Prod.fst ∨ k ∈ a.extraEnv.map Prod.fst) ∧
    (∀ k ∈ authVariables, Isolated a k → ∀ host, (sdkEnv host a).lookup k
      = (Dict.update (Dict.update ∅ creds) a.extraEnv).lookup k) ∧
    ∃ k ∈ authVariables, Isolated a k := by
  refine ⟨forall₂_congr fun k hk => isolated_iff hk hc, fun k hk hi host => ?_, ?_⟩
  · exact lookup_of_set hk hc ((isolated_iff hk hc).mp hi) host
  · -- the complete bundle has one of the two
    obtain ⟨k, hk, hv⟩ := List.any_eq_true.mp (settled_isComplete hs hr h)
    refine ⟨k, hk, (isolated_iff hk hc).mpr (Or.inl ?_)⟩
    split at hv
    · rename_i v hlook
      obtain ⟨l₁, l₂, rfl, -⟩ := List.lookup_eq_some_iff.mp hlook
      simp
    · cases hv

/-! ### A proxy of the user's -/

/-- Strict mode with a credentials store. -/
def strictConfig : ManagerConfig where
  maxConcurrent := 1
  pausedTimeoutS := 3600
  maxPaused := 1
  maxPausedPerApiKey := 1
  hasCredentialsStore := true
  requirePerUserCredentials := true

/-- The arguments of a runner for a user who has stored both secrets. -/
def bothStored : RunnerArgs where
  ctx := some ⟨[("ANTHROPIC_API_KEY", "k"), ("ANTHROPIC_AUTH_TOKEN", "t")], ""⟩

/-- A user who has stored both secrets. -/
theorem auth_isolated_of_both :
    Isolated bothStored "ANTHROPIC_API_KEY" ∧ Isolated bothStored "ANTHROPIC_AUTH_TOKEN" := by
  have hset : settleCredentials strictConfig { actorLabel := some "bob" }
      (some [("ANTHROPIC_API_KEY", "k"), ("ANTHROPIC_AUTH_TOKEN", "t")])
      = .ok [("ANTHROPIC_API_KEY", "k"), ("ANTHROPIC_AUTH_TOKEN", "t")] := by decide
  have hboth : ∀ k ∈ authVariables, Isolated bothStored k :=
    (auth_isolated_iff rfl (by decide) hset rfl).1.mpr (by decide)
  exact ⟨hboth _ (by decide), hboth _ (by decide)⟩

/-- The variables of a host, as a function. -/
def hostOf (vars : List (String × String)) : HostEnv := fun k => vars.lookup k

/-- What `bob` has stored: a token, and a proxy of his own. -/
def bobRows : Credentials :=
  [("ANTHROPIC_AUTH_TOKEN", "t"), ("ANTHROPIC_BASE_URL", "https://proxy.example")]

/-- A user with a token and a proxy of his own: the operator's key is sent along. -/
theorem operator_key_reaches_sdk :
    settleCredentials strictConfig { actorLabel := some "bob" } (some bobRows) = .ok bobRows ∧
      (sdkEnv (hostOf [("ANTHROPIC_API_KEY", "sk-operator")])
        { ctx := some { credentials := bobRows } }).lookup "ANTHROPIC_API_KEY"
          = some "sk-operator" ∧
      (sdkEnv (hostOf [("ANTHROPIC_API_KEY", "sk-operator")])
        { ctx := some { credentials := bobRows } }).lookup "ANTHROPIC_BASE_URL"
          = some "https://proxy.example" ∧
      ¬Isolated { ctx := some { credentials := bobRows } } "ANTHROPIC_API_KEY" := by
  refine ⟨by decide, by decide, by decide, fun h => ?_⟩
  exact absurd (h (hostOf [("ANTHROPIC_API_KEY", "sk-operator")]) (hostOf [])) (by decide)

end GgRelay
