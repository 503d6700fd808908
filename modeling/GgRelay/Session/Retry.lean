import GgRelay.Lib.PosixPath
import GgRelay.Session.Frames.Convert
import GgRelay.Session.Spec

/-!
`SessionManager.retry`: the specification that is rebuilt from the stored row of a session.

* `SpecRecord` is a specification as the interpreter holds it, `Submission` one that was submitted;
* `retrySpec` is the rebuilding, with its own defaults;
* `retrySpec_unchanged` and `retrySpec_refuses_iff` are what it makes of a row that the redactor
  left alone and when it refuses a row, `retry_preserves_iff` the result.
-/

namespace GgRelay

open Frames

/-- A `PluginManifest` as the interpreter holds it: its annotations are not checked. -/
structure ManifestRecord where
  profile : Json
  modules : List Json
  skills : List Json
  withComponents : List Json
  withoutComponents : List Json
  extraEnv : List (Json × Json)
  preRunCmds : List (List Json)

/-- A `SessionSpec` as the interpreter holds it. -/
structure SpecRecord (Policy : Type) where
  prompt : String
  cwd : PosixPath
  plugins : ManifestRecord
  executor : String
  timeoutS : ℤ
  metadata : List (String × Json)
  hitlPolicy : Option Policy
  tags : List Json

/-- `_effective_policy`. -/
def SpecRecord.effectivePolicy {Policy : Type} (defaultPolicy : Policy) (spec : SpecRecord Policy) :
    Policy :=
  spec.hitlPolicy.getD defaultPolicy

/-! ### `retry` -/

/-- What building a manifest raises. -/
inductive BuildError where
  | valueError (text : String)
  | typeError
  deriving DecidableEq, Repr

/-- What `retry` raises before it submits. -/
inductive RetryError where
  | sessionNotFound
  | retryConfig (message : String)
  | raised (e : PyError)
  deriving DecidableEq, Repr

/-- `v or default`. -/
def orElse (v default : Json) : Json := if truthy v then v else default

/-- `tuple(v or ())`. -/
def tupleOf (v : Json) : Except BuildError (List Json) :=
  (iter (orElse v (.tuple []))).mapError fun _ => .typeError

/-- `k, v = pair`. -/
def unpackPair (pair : Json) : Except BuildError (Json × Json) :=
  match iter pair with
  | .error _ => .error .typeError
  | .ok [k, v] => .ok (k, v)
  | .ok vs => .error <| .valueError <|
      if vs.length < 2 then s!"not enough values to unpack (expected 2, got {vs.length})"
      else "too many values to unpack (expected 2)"

/-- `PluginManifest.__post_init__` lets the manifest pass. -/
def ManifestRecord.selects (m : ManifestRecord) : Bool :=
  truthy m.profile || !m.modules.isEmpty || !m.skills.isEmpty

/-- The manifest that is built from `plugins_data`. -/
def rebuildManifest (plugins : Obj) : Except BuildError ManifestRecord := do
  let modules ← tupleOf (get plugins "modules")
  let skills ← tupleOf (get plugins "skills")
  let withComponents ← tupleOf (get plugins "with_components")
  let withoutComponents ← tupleOf (get plugins "without_components")
  let extraEnv ← (← tupleOf (get plugins "extra_env")).mapM unpackPair
  let preRunCmds ← (← tupleOf (get plugins "pre_run_cmds")).mapM fun cmd =>
    (iter cmd).mapError fun _ => .typeError
  let manifest : ManifestRecord := {
    profile := get plugins "profile", modules, skills, withComponents, withoutComponents, extraEnv,
    preRunCmds }
  if manifest.selects then return manifest
  else throw (.valueError "PluginManifest 必须指定 profile / modules / skills 至少一个")

/-- `plugins_data`: what is no mapping counts as empty. -/
def pluginsData (specJson : Obj) : Obj :=
  (asMapping (orElse (get specJson "plugins") (.mapping []))).getD []

/-- `str(v)`. -/
def textOf (B : Builtins) : Json → String
  | .str s => s
  | v => B.str v

/-- The text of a field, or its default. -/
def fieldText (B : Builtins) (specJson : Obj) (k default : String) : String :=
  textOf B (orElse (get specJson k) (.str default))

section Rebuild

variable {Policy : Type} (B : Builtins) (defaultTimeoutS : ℤ) (sid : String) (specJson : Obj)

/-- `retry`, from the stored row to the specification it submits. -/
def retrySpec : Except RetryError (SpecRecord Policy) :=
  let prompt := fieldText B specJson "prompt" ""
  if prompt = "" then
    .error (.retryConfig s!"cannot retry session {sid}: persisted spec has no prompt")
  else
    match rebuildManifest (pluginsData specJson) with
    | .error (.valueError text) =>
        .error (.retryConfig s!"cannot retry session {sid}: {text}")
    | .error .typeError => .error (.raised .typeError)
    | .ok plugins => do
        let timeoutS ← (B.int (orElse (get specJson "timeout_s")
          (.scalar (.int defaultTimeoutS)))).mapError .raised
        let tags ← (tupleOf (get specJson "tags")).mapError fun _ => .raised .typeError
        return {
          prompt := prompt
          cwd := .ofText (fieldText B specJson "cwd" ".").toList
          plugins := plugins
          executor := fieldText B specJson "executor" "inprocess"
          timeoutS := timeoutS
          metadata := []
          hitlPolicy := none
          tags := tags }

end Rebuild

/-! ### What was submitted -/

/-- The manifest as the interpreter holds it. -/
def PluginManifest.record (p : PluginManifest) : ManifestRecord where
  profile := p.profile.elim (.scalar .null) .str
  modules := p.modules.map .str
  skills := p.skills.map .str
  withComponents := p.withComponents.map .str
  withoutComponents := p.withoutComponents.map .str
  extraEnv := p.extraEnv.map fun kv => (.str kv.1, .str kv.2)
  preRunCmds := p.preRunCmds.map fun cmd => cmd.map .str

/-- A specification with the policy override it is submitted with; the fields have the values that
their annotations allow. -/
structure Submission (Policy : Type) where
  spec : SessionSpec
  cwd : PosixPath
  hitlPolicy : Option Policy
  cwd_text : spec.cwd = String.ofList cwd.text
  executor_mem : spec.executor ∈ ["docker", "inprocess", "k8s_job"]
  profile_ne : spec.plugins.profile ≠ some ""

/-- The submission as the interpreter holds it. -/
def Submission.record {Policy : Type} (s : Submission Policy) : SpecRecord Policy where
  prompt := s.spec.prompt
  cwd := s.cwd
  plugins := s.spec.plugins.record
  executor := s.spec.executor
  timeoutS := s.spec.timeoutS
  metadata := s.spec.metadata
  hitlPolicy := s.hitlPolicy
  tags := s.spec.tags.map .str

/-- The submission as the retry makes it of a row that the redactor left alone. -/
def Submission.retried {Policy : Type} (defaultTimeoutS : ℤ) (s : Submission Policy) :
    SpecRecord Policy :=
  { s.record with
    timeoutS := if s.spec.timeoutS = 0 then defaultTimeoutS else s.spec.timeoutS
    metadata := []
    hitlPolicy := none }

/-- The fields that are persisted and read back agree, and so does the effective tool policy. -/
def SpecRecord.SameSpec {Policy : Type} (defaultPolicy : Policy) (a b : SpecRecord Policy) : Prop :=
  a = { b with hitlPolicy := a.hitlPolicy } ∧
    a.effectivePolicy defaultPolicy = b.effectivePolicy defaultPolicy

/-! ### The members of a row -/

lemma tupleOf_list (vs : List Json) : tupleOf (.list vs) = .ok vs := by
  cases vs <;> rfl

lemma tupleOf_strings (xs : List String) : tupleOf (jsonStrings xs) = .ok (xs.map .str) :=
  tupleOf_list _

/-- A text is a tuple of characters. -/
lemma tupleOf_str (t : String) : tupleOf (.str t) = .ok (t.toList.map fun c => .str c.toString) := by
  rw [tupleOf, orElse, truthy]
  by_cases h : t = ""
  · subst h
    rfl
  · simp [h, iter, Except.mapError]

lemma mapM_pairs {env : List (String × String)} :
    (env.map fun p => Json.list [.str p.1, .str p.2]).mapM unpackPair
      = .ok (env.map fun p => (.str p.1, .str p.2)) := by
  induction env with
  | nil => rfl
  | cons p env ih =>
      rw [List.map_cons, List.mapM_cons, ih]
      rfl

/-- `tuple(cmd)` for every command. -/
def cmdTuples (cmds : List Json) : Except BuildError (List (List Json)) :=
  cmds.mapM fun cmd => (iter cmd).mapError fun _ => .typeError

lemma cmdTuples_strings (cmds : List (List String)) :
    cmdTuples (cmds.map jsonStrings) = .ok (cmds.map fun cmd => cmd.map .str) := by
  induction cmds with
  | nil => rfl
  | cons cmd cmds ih =>
      rw [cmdTuples, List.map_cons, List.mapM_cons]
      rw [cmdTuples] at ih
      rw [ih]
      rfl

section Fields

variable {B : Builtins} {specJson : Obj} {k default t : String}

lemma fieldText_str (h : get specJson k = .str t) :
    fieldText B specJson k default = if t = "" then default else t := by
  rw [fieldText, h, orElse, truthy]
  split_ifs <;> simp_all [textOf]

/-- The manifest, once its members are read. -/
def checkedManifest (m : ManifestRecord) : Except BuildError ManifestRecord :=
  if m.selects then .ok m
  else .error (.valueError "PluginManifest 必须指定 profile / modules / skills 至少一个")

/-- The rebuilding, where the fields can be iterated. -/
lemma rebuildManifest_eq {plugins : Obj} {modules skills withs withouts env cmds : List Json}
    {cmdRecords : List (List Json)} (hm : tupleOf (get plugins "modules") = .ok modules)
    (hs : tupleOf (get plugins "skills") = .ok skills)
    (hw : tupleOf (get plugins "with_components") = .ok withs)
    (hwo : tupleOf (get plugins "without_components") = .ok withouts)
    (he : tupleOf (get plugins "extra_env") = .ok env)
    (hp : tupleOf (get plugins "pre_run_cmds") = .ok cmds)
    (hc : cmdTuples cmds = .ok cmdRecords) :
    rebuildManifest plugins = (env.mapM unpackPair).bind fun extraEnv =>
      checkedManifest ⟨get plugins "profile", modules, skills, withs, withouts, extraEnv,
        cmdRecords⟩ := by
  rw [cmdTuples] at hc
  cases hmap : env.mapM unpackPair with
  | error e => simp only [rebuildManifest, hm, hs, hw, hwo, he, hmap, bind, Except.bind]
  | ok extraEnv =>
      simp only [rebuildManifest, hm, hs, hw, hwo, he, hp, hmap, hc, bind, Except.bind]
      rfl

end Fields

/-! ### A row that the redactor left alone -/

section Unchanged

variable {Policy : Type} {B : Builtins} {d : ℤ} {sid : String} {s : Submission Policy}

/-- The manifest of a submission is rebuilt as it was. -/
lemma rebuildManifest_toJsonSafe (s : Submission Policy) :
    rebuildManifest s.spec.plugins.toJsonSafe = .ok s.spec.plugins.record := by
  have hselects : s.spec.plugins.record.selects = true := by
    rcases s.spec.plugins.selects with h | h | h
    · obtain ⟨profile, hprofile⟩ := Option.isSome_iff_exists.mp h
      have hne : profile ≠ "" := fun hp => s.profile_ne (hprofile.trans (congrArg some hp))
      simp [ManifestRecord.selects, PluginManifest.record, hprofile, truthy, hne]
    · simp [ManifestRecord.selects, PluginManifest.record, h]
    · simp [ManifestRecord.selects, PluginManifest.record, h]
  rw [@rebuildManifest_eq s.spec.plugins.toJsonSafe _ _ _ _ _ _ _ (tupleOf_strings _)
    (tupleOf_strings _) (tupleOf_strings _) (tupleOf_strings _) (tupleOf_list _) (tupleOf_list _)
    (cmdTuples_strings _), mapM_pairs]
  exact if_pos hselects

/-- **What the retry makes of a row that the redactor left alone.** -/
theorem retrySpec_unchanged (s : Submission Policy) :
    retrySpec B d sid s.spec.toJsonSafe =
      if s.spec.prompt = "" then
        .error (.retryConfig s!"cannot retry session {sid}: persisted spec has no prompt")
      else .ok (s.retried d) := by
  have hprompt : fieldText B s.spec.toJsonSafe "prompt" "" = s.spec.prompt := by
    rw [fieldText_str rfl]
    split_ifs with h
    · exact h.symm
    · rfl
  have hcwd : fieldText B s.spec.toJsonSafe "cwd" "." = String.ofList s.cwd.text := by
    rw [fieldText_str rfl, s.cwd_text, if_neg]
    intro h
    exact s.cwd.text_ne_nil (by simpa using congrArg String.toList h)
  have hexecutor : fieldText B s.spec.toJsonSafe "executor" "inprocess" = s.spec.executor := by
    rw [fieldText_str rfl, if_neg]
    intro h
    have hmem := s.executor_mem
    rw [h] at hmem
    exact absurd hmem (by decide)
  have htimeout : B.int (orElse (get s.spec.toJsonSafe "timeout_s") (.scalar (.int d)))
      = .ok (if s.spec.timeoutS = 0 then d else s.spec.timeoutS) := by
    have hget : get s.spec.toJsonSafe "timeout_s" = .scalar (.int s.spec.timeoutS) := rfl
    rw [hget, orElse, truthy]
    by_cases h : s.spec.timeoutS = 0
    · simp [h, B.int_int]
    · simp [h, B.int_int]
  have hplugins : pluginsData s.spec.toJsonSafe = s.spec.plugins.toJsonSafe := rfl
  have htags : tupleOf (get s.spec.toJsonSafe "tags") = .ok (s.spec.tags.map .str) :=
    tupleOf_strings _
  rw [retrySpec, hprompt]
  split_ifs with h
  · rfl
  · rw [hplugins, rebuildManifest_toJsonSafe]
    simp only [htimeout, htags, hcwd, hexecutor, String.toList_ofList, PosixPath.ofText_text]
    rfl

end Unchanged

/-! ### A row that the redactor changed -/

section Changed

variable {E : RedactionEngine} {Policy : Type} {B : Builtins} {d : ℤ} {sid k : String}
  {specJson : Obj} {v : Json} {vs : List Json} {spec : SessionSpec}

lemma get_redactDict (h : specJson.lookup k = some v) :
    Frames.get (E.redactDict specJson) k = E.redactItem (k, v) :=
  get_redactFrame_of_some h

variable (E) in
/-- The members of a list under this key, once it is stored: the mask is a tuple of characters. -/
def storedMembers (k : String) (vs : List Json) : List Json :=
  if E.sensitive k then REDACTED.toList.map fun c => .str c.toString else vs.map E.redactValue

lemma tupleOf_redactItem : tupleOf (E.redactItem (k, .list vs)) = .ok (storedMembers E k vs) := by
  rw [RedactionEngine.redactItem, storedMembers]
  split_ifs
  · exact tupleOf_str REDACTED
  · rw [RedactionEngine.redactValue, RedactionEngine.redactList_eq_map]
    exact tupleOf_list _

lemma isEmpty_storedMembers : (storedMembers E k vs).isEmpty = (!E.sensitive k && vs.isEmpty) := by
  rw [storedMembers]
  split_ifs with h
  · rw [h]
    rfl
  · rw [Bool.not_eq_true] at h
    rw [h, List.isEmpty_map]
    rfl

/-- What is stored of a command can be iterated. -/
lemma cmdTuples_stored (cmds : List (List String)) :
    ∃ records, cmdTuples (storedMembers E "pre_run_cmds" (cmds.map jsonStrings)) = .ok records := by
  have htuples : ∀ vs : List Json, (∀ v ∈ vs, ∃ ws, iter v = .ok ws) →
      ∃ records, cmdTuples vs = .ok records := by
    intro vs
    induction vs with
    | nil => exact fun _ => ⟨[], rfl⟩
    | cons v vs ih =>
        intro h
        obtain ⟨⟨ws, hws⟩, hvs⟩ := List.forall_mem_cons.mp h
        obtain ⟨records, hrecords⟩ := ih hvs
        rw [cmdTuples] at hrecords
        refine ⟨ws :: records, ?_⟩
        rw [cmdTuples, List.mapM_cons, hws, hrecords]
        rfl
  refine htuples _ fun v hv => ?_
  rw [storedMembers] at hv
  split_ifs at hv
  · obtain ⟨c, -, rfl⟩ := List.mem_map.mp hv
    exact ⟨_, rfl⟩
  · obtain ⟨w, hw, rfl⟩ := List.mem_map.mp hv
    obtain ⟨cmd, -, rfl⟩ := List.mem_map.mp hw
    exact ⟨_, rfl⟩

variable (E) in
/-- What the interpreter makes of a stored variable: a pair. -/
def storedVar (p : String × String) : Json × Json :=
  (.str (E.redactString p.1), .str (E.redactString p.2))

/-- The mask cannot be taken apart into pairs. -/
lemma unpack_stored (env : List (String × String)) :
    (storedMembers E "extra_env" (env.map fun p => .list [.str p.1, .str p.2])).mapM unpackPair =
      if E.sensitive "extra_env" then
        .error (.valueError "not enough values to unpack (expected 2, got 1)")
      else .ok (env.map (storedVar E)) := by
  rw [storedMembers]
  split_ifs
  · rfl
  · induction env with
    | nil => rfl
    | cons p env ih =>
        rw [List.map_cons, List.map_cons, List.mapM_cons, ih]
        rfl

variable (E) in
/-- What is stored of the manifest selects nothing. -/
def NothingSelected (p : PluginManifest) : Prop :=
  truthy (E.redactItem ("profile", p.profile.elim (.scalar .null) .str)) = false ∧
    (E.sensitive "modules" = false ∧ p.modules = []) ∧ E.sensitive "skills" = false ∧ p.skills = []

/-- A stored manifest is refused if its variables are masked or if nothing is selected. -/
lemma rebuildManifest_refuses_iff (p : PluginManifest) :
    (∃ text, rebuildManifest (E.redactDict p.toJsonSafe) = .error (.valueError text)) ↔
      E.sensitive "extra_env" = true ∨ NothingSelected E p := by
  obtain ⟨records, hrecords⟩ := cmdTuples_stored (E := E) p.preRunCmds
  have hget : ∀ {k v}, p.toJsonSafe.lookup k = some v →
      get (E.redactDict p.toJsonSafe) k = E.redactItem (k, v) := get_redactDict
  have hlist : ∀ {k vs}, p.toJsonSafe.lookup k = some (.list vs) →
      tupleOf (get (E.redactDict p.toJsonSafe) k) = .ok (storedMembers E k vs) := fun h => by
    rw [hget h, tupleOf_redactItem]
  rw [rebuildManifest_eq (hlist rfl) (hlist rfl) (hlist rfl) (hlist rfl) (hlist rfl) (hlist rfl)
    hrecords, hget rfl, unpack_stored]
  by_cases henv : E.sensitive "extra_env" = true
  · simp [henv, Except.bind]
  · rw [if_neg henv]
    simp only [henv, Except.bind, checkedManifest, ManifestRecord.selects, isEmpty_storedMembers,
      NothingSelected]
    cases truthy (E.redactItem ("profile", p.profile.elim (.scalar .null) .str)) <;>
      cases E.sensitive "modules" <;> cases E.sensitive "skills" <;>
      cases hm : p.modules <;> cases hs : p.skills <;> simp

variable (E) in
/-- What `submit` stores of the specification. -/
def storedSpec (spec : SessionSpec) : Obj := E.redactDict spec.toJsonSafe

variable (E) in
/-- **The condition on a row that is refused.** -/
def Refused (spec : SessionSpec) : Prop :=
  (E.sensitive "prompt" = false ∧ E.redactString spec.prompt = "") ∨
    E.sensitive "plugins" = true ∨ E.sensitive "extra_env" = true ∨ NothingSelected E spec.plugins

lemma fieldText_prompt : fieldText B (storedSpec E spec) "prompt" "" = "" ↔
    E.sensitive "prompt" = false ∧ E.redactString spec.prompt = "" := by
  have hget : Frames.get (storedSpec E spec) "prompt"
      = .str (if E.sensitive "prompt" then REDACTED else E.redactString spec.prompt) := by
    rw [storedSpec, get_redactDict (show _ = some (Json.str spec.prompt) from rfl),
      RedactionEngine.redactItem]
    split_ifs <;> rfl
  rw [fieldText_str hget]
  cases E.sensitive "prompt" with
  | false => simp
  | true => simp [REDACTED]

/-- A masked manifest is no mapping. -/
lemma pluginsData_stored : pluginsData (storedSpec E spec) =
    if E.sensitive "plugins" then [] else E.redactDict spec.plugins.toJsonSafe := by
  have hget : Frames.get (storedSpec E spec) "plugins"
      = if E.sensitive "plugins" then .str REDACTED
        else .mapping (E.redactDict spec.plugins.toJsonSafe) := by
    rw [storedSpec, get_redactDict (show _ = some (Json.mapping _) from rfl),
      RedactionEngine.redactItem]
    rfl
  rw [pluginsData, hget]
  split_ifs <;> rfl

/-- Once the manifest is rebuilt, what raises is no `RetryConfigError`. -/
lemma retrySpec_of_ok {m : ManifestRecord} (h : rebuildManifest (pluginsData specJson) = .ok m)
    (hprompt : fieldText B specJson "prompt" "" ≠ "") (message : String) :
    (retrySpec B d sid specJson : Except RetryError (SpecRecord Policy))
      ≠ .error (.retryConfig message) := by
  rw [retrySpec, if_neg hprompt, h]
  cases B.int (orElse (Frames.get specJson "timeout_s") (.scalar (.int d))) with
  | error e => exact fun h => by cases h
  | ok n =>
      cases tupleOf (Frames.get specJson "tags") with
      | error e => exact fun h => by cases h
      | ok tags => exact fun h => by cases h

/-- **Which rows are refused.** -/
theorem retrySpec_refuses_iff :
    (∃ message, (retrySpec B d sid (storedSpec E spec) : Except RetryError (SpecRecord Policy))
      = .error (.retryConfig message)) ↔ Refused E spec := by
  rw [Refused, ← fieldText_prompt (B := B)]
  by_cases hprompt : fieldText B (storedSpec E spec) "prompt" "" = ""
  · simp only [hprompt, true_or, iff_true]
    exact ⟨_, by rw [retrySpec, if_pos hprompt]⟩
  · rw [or_iff_right hprompt]
    have hmanifest : (∃ text, rebuildManifest (pluginsData (storedSpec E spec))
        = .error (.valueError text)) ↔
          E.sensitive "plugins" = true ∨ E.sensitive "extra_env" = true ∨
            NothingSelected E spec.plugins := by
      rw [pluginsData_stored]
      by_cases hplugins : E.sensitive "plugins" = true
      · simp only [hplugins, if_true, true_or, iff_true]
        exact ⟨_, rfl⟩
      · rw [if_neg hplugins, rebuildManifest_refuses_iff, or_iff_right hplugins]
    rw [← hmanifest]
    constructor
    · rintro ⟨message, h⟩
      cases hm : rebuildManifest (pluginsData (storedSpec E spec)) with
      | ok m => exact absurd h (retrySpec_of_ok hm hprompt message)
      | error e =>
          cases e with
          | valueError text => exact ⟨text, rfl⟩
          | typeError =>
              rw [retrySpec, if_neg hprompt, hm] at h
              cases h
    · rintro ⟨text, h⟩
      exact ⟨_, by rw [retrySpec, if_neg hprompt, h]⟩

end Changed

/-! ### What a retry preserves -/

section Preserved

variable {Policy : Type} {d : ℤ} {defaultPolicy : Policy} {s : Submission Policy}

/-- The retried submission is the submission if nothing is lost that a row does not have. -/
lemma sameSpec_retried_iff : (s.retried d).SameSpec defaultPolicy s.record ↔
    s.spec.metadata = [] ∧ (s.spec.timeoutS = 0 → d = 0) ∧
      s.record.effectivePolicy defaultPolicy = defaultPolicy := by
  have hpolicy : (s.retried d).effectivePolicy defaultPolicy = defaultPolicy := rfl
  rw [SpecRecord.SameSpec, hpolicy, eq_comm (a := defaultPolicy)]
  simp only [Submission.retried, Submission.record, SpecRecord.mk.injEq, true_and, and_true]
  constructor
  · rintro ⟨⟨htimeout, hmetadata⟩, h⟩
    refine ⟨hmetadata.symm, fun hzero => ?_, h⟩
    rwa [if_pos hzero, hzero] at htimeout
  · rintro ⟨hmetadata, htimeout, h⟩
    refine ⟨⟨?_, hmetadata.symm⟩, h⟩
    split_ifs with hzero
    · rw [htimeout hzero, hzero]
    · rfl

end Preserved

/-- The fields of a row that influence the execution. -/
def executingFields : List String := ["prompt", "cwd", "plugins", "executor", "timeout_s"]

/-- **When a retry preserves the specification**: what the redactor left alone is submitted again
as it was, with the same policy, if there were no metadata, no policy of its own and no timeout
that the default replaces; and of the rows whose execution the redactor did change only those are
refused that cannot be rebuilt. -/
theorem retry_preserves_iff {Policy : Type} (E : RedactionEngine) (B : Builtins) (d : ℤ)
    (defaultPolicy : Policy) (sid : String) (s : Submission Policy) :
    (storedSpec E s.spec = s.spec.toJsonSafe →
      ((∃ r, retrySpec B d sid (storedSpec E s.spec) = .ok r ∧ r.SameSpec defaultPolicy s.record) ↔
        s.spec.prompt ≠ "" ∧ s.spec.metadata = [] ∧ (s.spec.timeoutS = 0 → d = 0) ∧
          s.record.effectivePolicy defaultPolicy = defaultPolicy)) ∧
    ((∃ k ∈ executingFields, get (storedSpec E s.spec) k ≠ get s.spec.toJsonSafe k) →
      ((∃ message, (retrySpec B d sid (storedSpec E s.spec) : Except RetryError (SpecRecord Policy))
        = .error (.retryConfig message)) ↔ Refused E s.spec)) := by
  refine ⟨fun h => ?_, fun _ => retrySpec_refuses_iff⟩
  rw [h, retrySpec_unchanged, ← sameSpec_retried_iff]
  split_ifs with hprompt
  · simp [hprompt]
  · simp [hprompt]

/-- A session with a prompt and one entry of metadata, which no pattern changes. -/
def taggedSubmission : Submission Unit where
  spec := {
    prompt := "hi", cwd := "/w", plugins := { profile := some "core", selects := selects_core }
    metadata := [("ticket", .str "T-1")] }
  cwd := .ofText ['/', 'w']
  hitlPolicy := none
  cwd_text := by decide
  executor_mem := by decide
  profile_ne := by decide

/-- An engine with one pattern, that masks a key in a text. -/
def keyEngine : RedactionEngine :=
  .new id [fun t => if t = "use sk-1" then "use ***REDACTED***" else t] []

/-- A session whose prompt the engine changes. -/
def maskedSubmission : Submission Unit :=
  { taggedSubmission with
    spec := { taggedSubmission.spec with prompt := "use sk-1", metadata := [] } }

/-- The first session loses its metadata, the second runs on its masked prompt. -/
theorem taggedSubmission_loses :
    storedSpec keyEngine taggedSubmission.spec = taggedSubmission.spec.toJsonSafe ∧
    (∃ r, retrySpec Builtins.plain 1800 "s" (storedSpec keyEngine taggedSubmission.spec) = .ok r ∧
      r.metadata = [] ∧ ¬r.SameSpec () taggedSubmission.record) ∧
    get (storedSpec keyEngine maskedSubmission.spec) "prompt"
      ≠ get maskedSubmission.spec.toJsonSafe "prompt" ∧
    ∃ r : SpecRecord Unit, retrySpec Builtins.plain 1800 "s"
      (storedSpec keyEngine maskedSubmission.spec) = .ok r ∧ r.prompt = "use ***REDACTED***" := by
  refine ⟨rfl, ⟨taggedSubmission.retried 1800, rfl, rfl, fun h => ?_⟩, fun h => ?_,
    _, rfl, rfl⟩
  · exact List.cons_ne_nil _ _ (congrArg SpecRecord.metadata h.1).symm
  · exact absurd (Json.str.inj h) (by decide)

end GgRelay
