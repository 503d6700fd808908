import GgRelay.Redaction.Engine

/-!
The specification of a session (`session/spec.py`), its serialisation `to_json_safe`, and what
`SessionManager.submit` stores and publishes of it.

* `SessionSpec.withoutSecrets` blanks every value the specification associates with a sensitive
  key: two specifications differ in such values only if it makes them equal;
* `secrets_not_persisted_iff` says when those values leave no trace in the stored row and in the
  event, `credential_is_persisted` that a credential in `extra_env` does.
-/

namespace GgRelay

/-- `PluginManifest`; its constructor refuses a manifest that selects nothing. -/
structure PluginManifest where
  profile : Option String := none
  modules : List String := []
  skills : List String := []
  withComponents : List String := []
  withoutComponents : List String := []
  extraEnv : List (String × String) := []
  preRunCmds : List (List String) := []
  selects : profile.isSome = true ∨ modules ≠ [] ∨ skills ≠ []

/-- `SessionSpec`, but for the policy override that no serialisation carries. -/
structure SessionSpec where
  prompt : String
  cwd : String
  plugins : PluginManifest
  executor : String := "docker"
  timeoutS : ℤ := 1800
  metadata : List (String × Json) := []
  tags : List String := []

/-- `list(...)` on a tuple of strings. -/
def jsonStrings (xs : List String) : Json := .list (xs.map .str)

/-- `[list(p) for p in self.plugins.extra_env]`. -/
def jsonEnv (env : List (String × String)) : Json :=
  .list (env.map fun p => .list [.str p.1, .str p.2])

/-- `[list(p) for p in self.metadata]`. -/
def jsonPairs (ps : List (String × Json)) : Json :=
  .list (ps.map fun p => .list [.str p.1, p.2])

/-- The value under `"plugins"` in `to_json_safe`. -/
def PluginManifest.toJsonSafe (p : PluginManifest) : List (String × Json) :=
  [("profile", p.profile.elim (.scalar .null) .str),
    ("modules", jsonStrings p.modules),
    ("skills", jsonStrings p.skills),
    ("with_components", jsonStrings p.withComponents),
    ("without_components", jsonStrings p.withoutComponents),
    ("extra_env", jsonEnv p.extraEnv),
    ("pre_run_cmds", .list (p.preRunCmds.map jsonStrings))]

/-- `to_json_safe`. -/
def SessionSpec.toJsonSafe (s : SessionSpec) : List (String × Json) :=
  [("prompt", .str s.prompt),
    ("cwd", .str s.cwd),
    ("plugins", .mapping s.plugins.toJsonSafe),
    ("executor", .str s.executor),
    ("timeout_s", .scalar (.int s.timeoutS)),
    ("metadata", jsonPairs s.metadata),
    ("tags", jsonStrings s.tags)]

/-! ### What `submit` stores and publishes -/

/-- What a caller of `submit` passes along with the specification, and the drawn id. -/
structure SubmitContext where
  sid : String
  traceId : String := ""
  owner : Option String := none
  description : Option String := none
  parentSessionId : Option String := none

/-- The arguments of `create_session`. -/
structure CreateSession where
  id : String
  specJson : List (String × Json)
  traceId : Option String
  backend : String
  tags : List String
  owner : Option String
  description : Option String
  parentSessionId : Option String

/-- `SessionCreated`. -/
structure SessionCreated where
  sessionId : String
  promptRedacted : String
  tags : List String

variable (E : RedactionEngine)

/-- The row `submit` inserts. -/
def submitStores (ctx : SubmitContext) (spec : SessionSpec) : CreateSession where
  id := ctx.sid
  specJson := E.redactDict spec.toJsonSafe
  traceId := if ctx.traceId = "" then none else some ctx.traceId
  backend := spec.executor
  tags := spec.tags
  owner := ctx.owner
  description := ctx.description
  parentSessionId := ctx.parentSessionId

/-- `str(v)` on a value that is a string. -/
def Json.asString : Json → String
  | .str s => s
  | _ => ""

/-- The event `submit` publishes. -/
def submitPublishes (ctx : SubmitContext) (spec : SessionSpec) : SessionCreated where
  sessionId := ctx.sid
  promptRedacted := String.ofList
    ((((E.redactDict spec.toJsonSafe).lookup "prompt").elim "" Json.asString).toList.take 512)
  tags := spec.tags

/-! ### Secrets -/

namespace RedactionEngine

mutual

/-- The value with everything under a sensitive key blanked. -/
def blank : Json → Json
  | .scalar a => .scalar a
  | .str s => .str s
  | .list vs => .list (blankMembers vs)
  | .tuple vs => .tuple (blankMembers vs)
  | .mapping d => .mapping (blankItems d)

def blankMembers : List Json → List Json
  | [] => []
  | v :: vs => blank v :: blankMembers vs

def blankItems : List (String × Json) → List (String × Json)
  | [] => []
  | (k, v) :: d => (k, if E.sensitive k then .scalar .null else blank v) :: blankItems d

end

/-- A pair of `metadata` with its secrets blanked. -/
def blankPair (p : String × Json) : String × Json :=
  (p.1, if E.sensitive p.1 then .scalar .null else E.blank p.2)

/-- A pair of `extra_env` with its secret blanked. -/
def blankVar (p : String × String) : String × String :=
  (p.1, if E.sensitive p.1 then "" else p.2)

/-- The patterns rewrite all strings alike. -/
def Blind : Prop := ∀ a b, E.redactString a = E.redactString b

end RedactionEngine

/-- The specification with every value under a sensitive key blanked. -/
def SessionSpec.withoutSecrets (s : SessionSpec) : SessionSpec :=
  { s with
    plugins := { s.plugins with extraEnv := s.plugins.extraEnv.map E.blankVar }
    metadata := s.metadata.map E.blankPair }

namespace RedactionEngine

variable {E}

lemma blankMembers_eq_map (vs : List Json) : E.blankMembers vs = vs.map E.blank := by
  induction vs with
  | nil => rfl
  | cons v vs ih => rw [blankMembers, ih, List.map_cons]

lemma blankItems_eq_map (d : List (String × Json)) : E.blankItems d = d.map E.blankPair := by
  induction d with
  | nil => rfl
  | cons kv d ih => rw [blankItems, ih, List.map_cons, blankPair]

/-- What the engine makes of a value does not depend on the secrets in it. -/
lemma redactValue_blank (v : Json) : E.redactValue (E.blank v) = E.redactValue v := by
  induction v using Json.rec_members with
  | scalar | str => rfl
  | list vs ih | tuple vs ih =>
      rw [blank, redactValue, redactValue, blankMembers_eq_map, redactList_eq_map,
        redactList_eq_map, List.map_map]
      exact congrArg Json.list (List.map_congr_left ih)
  | mapping d ih =>
      rw [blank, redactValue, redactValue, blankItems_eq_map, redactDict_eq_map,
        redactDict_eq_map, List.map_map]
      refine congrArg Json.mapping (List.map_congr_left fun kv hkv => ?_)
      simp only [Function.comp_apply, blankPair, redactItem]
      by_cases hs : E.sensitive kv.1 = true
      · simp [hs]
      · simp [hs, ih kv hkv]

/-- A pair is an array of two members: its key is a string like any other. -/
def redactPair (E : RedactionEngine) (p : String × Json) : Json :=
  .list [.str (E.redactString p.1), E.redactValue p.2]

lemma redactValue_jsonPairs (ps : List (String × Json)) :
    E.redactValue (jsonPairs ps) = .list (ps.map E.redactPair) := by
  rw [jsonPairs, redactValue, redactList_eq_map, List.map_map]
  rfl

lemma redactValue_jsonEnv (env : List (String × String)) :
    E.redactValue (jsonEnv env) = .list (env.map fun p => E.redactPair (p.1, .str p.2)) := by
  rw [jsonEnv, redactValue, redactList_eq_map, List.map_map]
  rfl

/-- Without a sensitive key a pair is stored whole, -/
lemma redactPair_blankPair {p : String × Json} (h : E.sensitive p.1 = false) :
    E.redactPair (E.blankPair p) = E.redactPair p := by
  simp [redactPair, blankPair, h, redactValue_blank]

/-- and so is a variable, unless the patterns rewrite all strings alike. -/
lemma redactPair_blankVar {p : String × String} (h : E.Blind ∨ E.sensitive p.1 = false) :
    E.redactPair ((E.blankVar p).1, .str (E.blankVar p).2) = E.redactPair (p.1, .str p.2) := by
  rcases h with h | h
  · simp [redactPair, blankVar, redactValue, h (if E.sensitive p.1 then "" else p.2) p.2]
  · simp [redactPair, blankVar, h]

end RedactionEngine

namespace SessionSpec

variable {E} {s s' : SessionSpec}

/-- Blanking keeps the keys of the pairs. -/
lemma sensitive_of_blankPairs {ps ps' : List (String × Json)}
    (h : ps'.map E.blankPair = ps.map E.blankPair) (hs : ∀ p ∈ ps, E.sensitive p.1 = false) :
    ∀ p ∈ ps', E.sensitive p.1 = false := by
  intro p hp
  obtain ⟨q, hq, heq⟩ := List.mem_map.mp (h ▸ List.mem_map_of_mem hp)
  have hkey : (E.blankPair q).1 = (E.blankPair p).1 := by rw [heq]
  rw [← show q.1 = p.1 from hkey]
  exact hs q hq

lemma sensitive_of_blankVars {env env' : List (String × String)}
    (h : env'.map E.blankVar = env.map E.blankVar) (hs : ∀ p ∈ env, E.sensitive p.1 = false) :
    ∀ p ∈ env', E.sensitive p.1 = false := by
  intro p hp
  obtain ⟨q, hq, heq⟩ := List.mem_map.mp (h ▸ List.mem_map_of_mem hp)
  have hkey : (E.blankVar q).1 = (E.blankVar p).1 := by rw [heq]
  rw [← show q.1 = p.1 from hkey]
  exact hs q hq

/-- Pairs that differ in secrets only are redacted alike if no key is sensitive. -/
lemma redact_pairs_congr {ps ps' : List (String × Json)}
    (h : ps'.map E.blankPair = ps.map E.blankPair) (hs : ∀ p ∈ ps, E.sensitive p.1 = false) :
    E.redactValue (jsonPairs ps') = E.redactValue (jsonPairs ps) := by
  have hblank : ∀ {qs : List (String × Json)}, (∀ p ∈ qs, E.sensitive p.1 = false) →
      qs.map E.redactPair = (qs.map E.blankPair).map E.redactPair := fun hq => by
    rw [List.map_map]
    exact List.map_congr_left fun p hp =>
      (RedactionEngine.redactPair_blankPair (hq p hp)).symm
  rw [RedactionEngine.redactValue_jsonPairs, RedactionEngine.redactValue_jsonPairs, hblank hs,
    hblank (sensitive_of_blankPairs h hs), h]

lemma redact_env_congr {env env' : List (String × String)}
    (h : env'.map E.blankVar = env.map E.blankVar)
    (hs : E.Blind ∨ ∀ p ∈ env, E.sensitive p.1 = false) :
    E.redactValue (jsonEnv env') = E.redactValue (jsonEnv env) := by
  have hblank : ∀ {qs : List (String × String)},
      (E.Blind ∨ ∀ p ∈ qs, E.sensitive p.1 = false) →
      qs.map (fun p => E.redactPair (p.1, .str p.2))
        = (qs.map E.blankVar).map fun p => E.redactPair (p.1, .str p.2) := fun hq => by
    rw [List.map_map]
    exact List.map_congr_left fun p hp =>
      (RedactionEngine.redactPair_blankVar (hq.imp id fun hq => hq p hp)).symm
  rw [RedactionEngine.redactValue_jsonEnv, RedactionEngine.redactValue_jsonEnv, hblank hs,
    hblank (hs.imp id (sensitive_of_blankVars h)), h]

/-- The stored specification of `s'` is that of `s`. -/
lemma redactDict_toJsonSafe_congr (h : s'.withoutSecrets E = s.withoutSecrets E)
    (henv : E.sensitive "plugins" = true ∨ E.sensitive "extra_env" = true ∨
      E.redactValue (jsonEnv s'.plugins.extraEnv) = E.redactValue (jsonEnv s.plugins.extraEnv))
    (hmeta : E.sensitive "metadata" = true ∨
      E.redactValue (jsonPairs s'.metadata) = E.redactValue (jsonPairs s.metadata)) :
    E.redactDict s'.toJsonSafe = E.redactDict s.toJsonSafe := by
  simp only [withoutSecrets, mk.injEq, PluginManifest.mk.injEq] at h
  obtain ⟨hprompt, hcwd, ⟨hprofile, hmodules, hskills, hwith, hwithout, -, hpre⟩, hexecutor,
    htimeout, -, htags⟩ := h
  have hplugins : E.redactItem ("plugins", .mapping s'.plugins.toJsonSafe)
      = E.redactItem ("plugins", .mapping s.plugins.toJsonSafe) := by
    by_cases hp : E.sensitive "plugins" = true
    · simp [RedactionEngine.redactItem, hp]
    · have hvars : E.redactItem ("extra_env", jsonEnv s'.plugins.extraEnv)
          = E.redactItem ("extra_env", jsonEnv s.plugins.extraEnv) := by
        rcases henv with hm | hm | hm
        · exact absurd hm hp
        · simp [RedactionEngine.redactItem, hm]
        · simp [RedactionEngine.redactItem, hm]
      rw [RedactionEngine.redactItem, RedactionEngine.redactItem, if_neg hp, if_neg hp]
      simp only [RedactionEngine.redactValue, RedactionEngine.redactDict_eq_map,
        PluginManifest.toJsonSafe, List.map_cons, List.map_nil, hvars, hprofile, hmodules,
        hskills, hwith, hwithout, hpre]
  have hmetadata : E.redactItem ("metadata", jsonPairs s'.metadata)
      = E.redactItem ("metadata", jsonPairs s.metadata) := by
    rcases hmeta with hm | hm
    · simp [RedactionEngine.redactItem, hm]
    · simp [RedactionEngine.redactItem, hm]
  simp only [RedactionEngine.redactDict_eq_map, toJsonSafe, List.map_cons, List.map_nil, hplugins,
    hmetadata, hprompt, hcwd, hexecutor, htimeout, htags]

/-- The fields of the stored specification can be read off it. -/
lemma redact_fields_of_eq (h : E.redactDict s'.toJsonSafe = E.redactDict s.toJsonSafe) :
    (E.sensitive "plugins" = true ∨ E.sensitive "extra_env" = true ∨
      E.redactValue (jsonEnv s'.plugins.extraEnv) = E.redactValue (jsonEnv s.plugins.extraEnv)) ∧
    (E.sensitive "metadata" = true ∨
      E.redactValue (jsonPairs s'.metadata) = E.redactValue (jsonPairs s.metadata)) := by
  simp only [RedactionEngine.redactDict_eq_map, toJsonSafe, List.map_cons, List.map_nil,
    List.cons.injEq, Prod.mk.injEq, true_and, and_true] at h
  obtain ⟨-, -, hplugins, -, -, hmetadata, -⟩ := h
  constructor
  · by_cases hp : E.sensitive "plugins" = true
    · exact Or.inl hp
    · by_cases he : E.sensitive "extra_env" = true
      · exact Or.inr (Or.inl he)
      · simp only [RedactionEngine.redactItem, if_neg hp, RedactionEngine.redactValue,
          RedactionEngine.redactDict_eq_map, PluginManifest.toJsonSafe, List.map_cons,
          List.map_nil, Json.mapping.injEq, List.cons.injEq, Prod.mk.injEq, true_and,
          and_true, if_neg he] at hplugins
        exact Or.inr (Or.inr hplugins.2.2.2.2.2.1)
  · by_cases hm : E.sensitive "metadata" = true
    · exact Or.inl hm
    · simp only [RedactionEngine.redactItem, if_neg hm] at hmetadata
      exact Or.inr hmetadata

variable (E) in
/-- The specification with other values under the sensitive keys of its pairs. -/
def setSecrets (a : String) (w : Json) (s : SessionSpec) : SessionSpec :=
  { s with
    plugins := { s.plugins with
      extraEnv := s.plugins.extraEnv.map fun p => (p.1, if E.sensitive p.1 then a else p.2) }
    metadata := s.metadata.map fun p => (p.1, if E.sensitive p.1 then w else p.2) }

lemma withoutSecrets_setSecrets (a : String) (w : Json) :
    (s.setSecrets E a w).withoutSecrets E = s.withoutSecrets E := by
  simp only [withoutSecrets, setSecrets, List.map_map, mk.injEq, PluginManifest.mk.injEq,
    true_and, and_true]
  refine ⟨List.map_congr_left fun p _ => ?_, List.map_congr_left fun p _ => ?_⟩
  · by_cases hs : E.sensitive p.1 = true <;> simp [RedactionEngine.blankVar, hs]
  · by_cases hs : E.sensitive p.1 = true <;> simp [RedactionEngine.blankPair, hs]

/-- A sensitive variable whose value does not show is one the patterns hide with all others. -/
lemma blind_of_env {p : String × String} (hp : p ∈ s.plugins.extraEnv)
    (hs : E.sensitive p.1 = true)
    (h : ∀ a, E.redactValue (jsonEnv (s.setSecrets E a (.scalar .null)).plugins.extraEnv)
      = E.redactValue (jsonEnv s.plugins.extraEnv)) : E.Blind := by
  have hall : ∀ a, E.redactString a = E.redactString p.2 := by
    intro a
    have ha := h a
    rw [RedactionEngine.redactValue_jsonEnv, RedactionEngine.redactValue_jsonEnv,
      Json.list.injEq, setSecrets, List.map_map, List.map_inj_left] at ha
    simpa [RedactionEngine.redactPair, RedactionEngine.redactValue, hs] using ha p hp
  exact fun a b => (hall a).trans (hall b).symm

/-- A sensitive pair of `metadata` shows. -/
lemma not_sensitive_of_metadata {p : String × Json} (hp : p ∈ s.metadata)
    (h : ∀ w, E.redactValue (jsonPairs (s.setSecrets E "" w).metadata)
      = E.redactValue (jsonPairs s.metadata)) : E.sensitive p.1 = false := by
  by_contra hs
  rw [Bool.not_eq_false] at hs
  have hall : ∀ w, E.redactValue w = E.redactValue p.2 := by
    intro w
    have hw := h w
    rw [RedactionEngine.redactValue_jsonPairs, RedactionEngine.redactValue_jsonPairs,
      Json.list.injEq, setSecrets, List.map_map, List.map_inj_left] at hw
    simpa [RedactionEngine.redactPair, hs] using hw p hp
  have hne := (hall (.scalar .null)).trans (hall (.scalar (.bool true))).symm
  simp [RedactionEngine.redactValue] at hne

variable (E s) in
/-- No value under a sensitive key shows in the stored specification: the pairs of `extra_env`
and of `metadata` have no sensitive keys, or the engine hides them whole. -/
def KeepsSecrets : Prop :=
  (E.sensitive "plugins" = true ∨ E.sensitive "extra_env" = true ∨ E.Blind ∨
      ∀ p ∈ s.plugins.extraEnv, E.sensitive p.1 = false) ∧
    (E.sensitive "metadata" = true ∨ ∀ p ∈ s.metadata, E.sensitive p.1 = false)

end SessionSpec

/-- **The values under sensitive keys leave no trace in what `submit` stores and publishes
exactly if no pair of `extra_env` and of `metadata` has a sensitive key**, or the engine hides
these fields whole. -/
theorem secrets_not_persisted_iff (ctx : SubmitContext) (s : SessionSpec) :
    (∀ s' : SessionSpec, s'.withoutSecrets E = s.withoutSecrets E →
      submitStores E ctx s' = submitStores E ctx s ∧
        submitPublishes E ctx s' = submitPublishes E ctx s) ↔ s.KeepsSecrets E := by
  constructor
  · intro h
    have hset : ∀ a w, _ := fun a w => SessionSpec.redact_fields_of_eq
      (congrArg CreateSession.specJson (h (s.setSecrets E a w)
        (SessionSpec.withoutSecrets_setSecrets a w)).1)
    constructor
    · by_contra hn
      simp only [not_or, not_forall] at hn
      obtain ⟨hp, he, hb, p, hmem, hs⟩ := hn
      refine hb (SessionSpec.blind_of_env hmem (by simpa using hs) fun a => ?_)
      exact ((hset a (.scalar .null)).1.resolve_left hp).resolve_left he
    · by_cases hm : E.sensitive "metadata" = true
      · exact Or.inl hm
      · exact Or.inr fun p hp => SessionSpec.not_sensitive_of_metadata hp fun w =>
          (hset "" w).2.resolve_left hm
  · rintro ⟨henv, hmeta⟩ s' h
    have hfields := h
    simp only [SessionSpec.withoutSecrets, SessionSpec.mk.injEq, PluginManifest.mk.injEq]
      at hfields
    obtain ⟨-, -, ⟨-, -, -, -, -, hvars, -⟩, hexecutor, -, hpairs, htags⟩ := hfields
    have hjson : E.redactDict s'.toJsonSafe = E.redactDict s.toJsonSafe :=
      SessionSpec.redactDict_toJsonSafe_congr h
        (henv.imp id (Or.imp id (SessionSpec.redact_env_congr hvars)))
        (hmeta.imp id (SessionSpec.redact_pairs_congr hpairs))
    constructor
    · simp only [submitStores, hjson, hexecutor, htags]
    · simp only [submitPublishes, hjson, htags]

/-- A manifest with a profile selects something. -/
lemma selects_core :
    (some "core").isSome = true ∨ ([] : List String) ≠ [] ∨ ([] : List String) ≠ [] := Or.inl rfl

/-- A specification with one pair of metadata. -/
def tokenSpec (n : ℤ) : SessionSpec where
  prompt := "hi"
  cwd := "/w"
  plugins := { profile := some "core", selects := Or.inl rfl }
  metadata := [("token", .scalar (.int n))]

/-- With the keys of the application, a token among the `metadata` is stored as it is: two
specifications that differ in it give different rows, whatever the patterns. -/
theorem token_is_persisted :
    ∃ s s' : SessionSpec, s = tokenSpec 1 ∧ s' = tokenSpec 2 ∧ ∀ patterns,
      s'.withoutSecrets (lifespanRedactor String.toLower patterns [])
          = s.withoutSecrets (lifespanRedactor String.toLower patterns []) ∧
        (submitStores (lifespanRedactor String.toLower patterns []) { sid := "s1" } s').specJson
          ≠ (submitStores (lifespanRedactor String.toLower patterns []) { sid := "s1" }
            s).specJson := by
  refine ⟨_, _, rfl, rfl, fun patterns => ?_⟩
  have htoken : (lifespanRedactor String.toLower patterns []).sensitive "token" = true := by
    have h : (lifespanRedactor String.toLower [] []).sensitive "token" = true := by
      decide +kernel
    exact h
  have hmetadata : (lifespanRedactor String.toLower patterns []).sensitive "metadata" = false := by
    have h : (lifespanRedactor String.toLower [] []).sensitive "metadata" = false := by
      decide +kernel
    exact h
  refine ⟨?_, fun h => ?_⟩
  · simp [SessionSpec.withoutSecrets, RedactionEngine.blankPair, tokenSpec, htoken]
  · have hpairs := (SessionSpec.redact_fields_of_eq h).2.resolve_left (by simp [hmetadata])
    simp [tokenSpec, jsonPairs, RedactionEngine.redactValue, RedactionEngine.redactList] at hpairs

end GgRelay
