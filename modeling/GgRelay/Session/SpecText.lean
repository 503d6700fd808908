import GgRelay.Lib.JsonRoundTrip
import GgRelay.Session.Retry

/-!
`SessionSpec.to_json` and `SessionSpec.from_json`: the text of a specification in the environment of
a container, and the specification that the runner there builds of it.

* `AcceptedSpec` is a specification that the constructors accept, with JSON values in its metadata;
* `fromJson` builds a `BuiltSpec`, whose fields have whatever types the text gives them;
* `spec_round_trip_iff`: the runner gets what the host was given exactly if the text keeps within
  the limits of the interpreters, on digits and on nesting.
-/

namespace GgRelay

open Frames Json JsonRead

/-- A `SessionSpec` as `from_json` builds it: annotations are not checked. -/
structure BuiltSpec where
  prompt : Json
  cwd : PosixPath
  plugins : ManifestRecord
  executor : Json
  timeoutS : ℤ
  metadata : List (Json × Json)
  tags : List Json

/-- A specification without a policy override that the constructors accept, with JSON values in its
metadata. -/
structure AcceptedSpec where
  spec : SessionSpec
  cwd : PosixPath
  cwd_text : spec.cwd = String.ofList cwd.text
  /-- `__post_init__` lets the manifest pass -/
  selects : spec.plugins.record.selects = true
  metadata_json : ∀ p ∈ spec.metadata, All IsJson p.2

/-- The specification as the interpreter holds it. -/
def AcceptedSpec.built (s : AcceptedSpec) : BuiltSpec where
  prompt := .str s.spec.prompt
  cwd := s.cwd
  plugins := s.spec.plugins.record
  executor := .str s.spec.executor
  timeoutS := s.spec.timeoutS
  metadata := s.spec.metadata.map fun p => (.str p.1, p.2)
  tags := s.spec.tags.map .str

/-! ### `to_json` and `from_json` -/

/-- An object that `json.dumps` writes without a `default`. -/
def Serialisable : Json → Prop
  | .scalar (.other r) => isFloat r = true
  | _ => True

instance : DecidablePred Serialisable
  | .scalar (.other _) => inferInstanceAs (Decidable (_ = _))
  | .scalar .null | .scalar (.bool _) | .scalar (.int _) | .str _ | .list _ | .tuple _
  | .mapping _ => inferInstanceAs (Decidable True)

/-- `to_json`, with so many levels for the writer; `none` is an exception. -/
def SessionSpec.toJson (limit : ℕ) (s : SessionSpec) : Option (List Char) :=
  if All Serialisable (.mapping s.toJsonSafe) then dumpsWithin [] limit (.mapping s.toJsonSafe)
  else none

/-- What `from_json` raises. -/
inductive FromJsonError where
  | load (e : LoadError)
  | keyError (k : String)
  | attributeError
  | raised (e : PyError)
  | build (e : BuildError)
  deriving DecidableEq, Repr

/-- `data[k]`. -/
def field (data : Obj) (k : String) : Except FromJsonError Json :=
  match data.lookup k with
  | some v => .ok v
  | none => .error (.keyError k)

/-- `Path(v)`. -/
def pathOf : Json → Except FromJsonError PosixPath
  | .str s => .ok (.ofText s.toList)
  | _ => .error (.raised .typeError)

/-- `from_json`, with so many levels for the reader. -/
def fromJson (B : Builtins) (limit : ℕ) (raw : List Char) : Except FromJsonError BuiltSpec := do
  let v ← (loads limit raw).mapError .load
  -- only a mapping has string keys
  let data ← (asMapping v).elim (.error (.raised .typeError)) .ok
  let pluginsData ← (asMapping (← field data "plugins")).elim (.error .attributeError) .ok
  let plugins ← (rebuildManifest pluginsData).mapError .build
  let prompt ← field data "prompt"
  let cwd ← pathOf (← field data "cwd")
  let timeoutS ← (B.int (getD data "timeout_s" (.scalar (.int 1800)))).mapError .raised
  let pairs ← (tupleOf (get data "metadata")).mapError .build
  let metadata ← (pairs.mapM unpackPair).mapError .build
  let tags ← (tupleOf (get data "tags")).mapError .build
  return { prompt, cwd, plugins, executor := getD data "executor" (.str "docker"), timeoutS, metadata,
           tags }

/-! ### The payload -/

/-- The value that `to_json` writes. -/
def AcceptedSpec.payload (s : AcceptedSpec) : Json := .mapping s.spec.toJsonSafe

section Payload

variable {p : Json → Prop}

lemma all_jsonStrings (hlist : ∀ vs, p (.list vs)) (hstr : ∀ t, p (.str t)) (xs : List String) :
    All p (jsonStrings xs) := by
  rw [jsonStrings, All, allMembers_iff, List.forall_mem_map]
  exact ⟨hlist _, fun t _ => hstr t⟩

/-- What has to be checked of a payload: its integer, and the values in its metadata. -/
lemma AcceptedSpec.all_payload_iff (s : AcceptedSpec) (hlist : ∀ vs, p (.list vs))
    (hstr : ∀ t, p (.str t)) (hnull : p (.scalar .null)) (hspec : p s.payload)
    (hplugins : p (.mapping s.spec.plugins.toJsonSafe)) :
    All p s.payload ↔
      p (.scalar (.int s.spec.timeoutS)) ∧ ∀ kv ∈ s.spec.metadata, All p kv.2 := by
  have hstrings := all_jsonStrings hlist hstr
  have hprofile : All p (s.spec.plugins.profile.elim (.scalar .null) .str) := by
    cases s.spec.plugins.profile with
    | none => exact hnull
    | some profile => exact hstr profile
  have henv : All p (jsonEnv s.spec.plugins.extraEnv) := by
    rw [jsonEnv, All, allMembers_iff, List.forall_mem_map]
    exact ⟨hlist _, fun kv _ => ⟨hlist _, hstr _, hstr _, trivial⟩⟩
  have hcmds : All p (.list (s.spec.plugins.preRunCmds.map jsonStrings)) := by
    rw [All, allMembers_iff, List.forall_mem_map]
    exact ⟨hlist _, fun cmd _ => hstrings cmd⟩
  have hmanifest : All p (.mapping s.spec.plugins.toJsonSafe) :=
    ⟨hplugins, hprofile, hstrings _, hstrings _, hstrings _, hstrings _, henv, hcmds, trivial⟩
  have hmetadata : All p (jsonPairs s.spec.metadata) ↔ ∀ kv ∈ s.spec.metadata, All p kv.2 := by
    rw [jsonPairs, All, allMembers_iff, List.forall_mem_map]
    constructor
    · exact fun h kv hkv => (h.2 kv hkv).2.2.1
    · exact fun h => ⟨hlist _, fun kv hkv => ⟨hlist _, hstr _, h kv hkv, trivial⟩⟩
  rw [← hmetadata]
  constructor
  · rintro ⟨-, -, -, -, -, htimeout, hpairs, -⟩
    exact ⟨htimeout, hpairs⟩
  · rintro ⟨htimeout, hpairs⟩
    exact ⟨hspec, hstr _, hstr _, hmanifest, hstr _, htimeout, hpairs, hstrings _, trivial⟩

end Payload

lemma AcceptedSpec.payload_isJson (s : AcceptedSpec) : All IsJson s.payload := by
  refine (s.all_payload_iff (fun _ => trivial) (fun _ => trivial) trivial ?_ ?_).mpr
    ⟨trivial, s.metadata_json⟩
  · show (s.spec.toJsonSafe.map Prod.fst).Nodup
    simp [SessionSpec.toJsonSafe]
  · show (s.spec.plugins.toJsonSafe.map Prod.fst).Nodup
    simp [PluginManifest.toJsonSafe]

lemma AcceptedSpec.payload_serialisable (s : AcceptedSpec) : All Serialisable s.payload :=
  s.payload_isJson.imp fun v hv => by
    cases v with
    | scalar a =>
        cases a with
        | other r => exact isFloat_of_isFloatText hv
        | null | bool b | int n => trivial
    | str | list | tuple | mapping => trivial

/-- The integers that the text carries. -/
def AcceptedSpec.IntsShort (s : AcceptedSpec) : Prop :=
  IntShort (.scalar (.int s.spec.timeoutS)) ∧ ∀ kv ∈ s.spec.metadata, All IntShort kv.2

lemma AcceptedSpec.all_intShort_iff (s : AcceptedSpec) : All IntShort s.payload ↔ s.IntsShort :=
  s.all_payload_iff (fun _ => trivial) (fun _ => trivial) trivial trivial trivial

/-- The text of a specification, if there is one. -/
lemma AcceptedSpec.toJson_eq_some_iff (s : AcceptedSpec) {limit : ℕ} {raw : List Char} :
    s.spec.toJson limit = some raw ↔
      (depth s.payload ≤ limit ∧ s.IntsShort) ∧ write [] s.payload = raw := by
  have hserialisable : All Serialisable (.mapping s.spec.toJsonSafe) := s.payload_serialisable
  rw [SessionSpec.toJson, if_pos hserialisable]
  show dumpsWithin [] limit s.payload = some raw ↔ _
  rw [dumpsWithin, writeLevels_eq_depth s.payload_isJson, ← s.all_intShort_iff]
  split_ifs with h
  · simp [h]
  · simp [h]

/-- The pairs of the metadata. -/
lemma mapM_metadata (ps : List (String × Json)) :
    (ps.map fun p => Json.list [.str p.1, p.2]).mapM unpackPair
      = .ok (ps.map fun p => (.str p.1, p.2)) := by
  induction ps with
  | nil => rfl
  | cons p ps ih =>
      rw [List.map_cons, List.mapM_cons, ih]
      rfl

lemma AcceptedSpec.rebuildManifest_payload (s : AcceptedSpec) :
    rebuildManifest s.spec.plugins.toJsonSafe = .ok s.spec.plugins.record := by
  rw [@rebuildManifest_eq s.spec.plugins.toJsonSafe _ _ _ _ _ _ _ (tupleOf_strings _)
    (tupleOf_strings _) (tupleOf_strings _) (tupleOf_strings _) (tupleOf_list _) (tupleOf_list _)
    (cmdTuples_strings _), mapM_pairs]
  exact if_pos s.selects

/-- What is built of a text that is read as the payload. -/
lemma AcceptedSpec.fromJson_of_loads (s : AcceptedSpec) (B : Builtins) {limit : ℕ} {raw : List Char}
    (h : loads limit raw = .ok s.payload) : fromJson B limit raw = .ok s.built := by
  have hcwd : pathOf (.str s.spec.cwd) = .ok s.cwd := by
    rw [pathOf, s.cwd_text, String.toList_ofList, PosixPath.ofText_text]
  have hmetadata : tupleOf (jsonPairs s.spec.metadata)
      = .ok (s.spec.metadata.map fun p => .list [.str p.1, p.2]) := tupleOf_list _
  have hplugins : field s.spec.toJsonSafe "plugins" = .ok (.mapping s.spec.plugins.toJsonSafe) := rfl
  have hcwdField : field s.spec.toJsonSafe "cwd" = .ok (.str s.spec.cwd) := rfl
  have hprompt : field s.spec.toJsonSafe "prompt" = .ok (.str s.spec.prompt) := rfl
  have htimeout : getD s.spec.toJsonSafe "timeout_s" (.scalar (.int 1800))
      = .scalar (.int s.spec.timeoutS) := rfl
  have hpairs : get s.spec.toJsonSafe "metadata" = jsonPairs s.spec.metadata := rfl
  have htags : get s.spec.toJsonSafe "tags" = jsonStrings s.spec.tags := rfl
  simp only [fromJson, h, AcceptedSpec.payload, Except.mapError, asMapping, Option.elim_some, bind,
    Except.bind, hplugins, s.rebuildManifest_payload, hprompt, hcwdField, hcwd, htimeout, B.int_int,
    hpairs, hmetadata, mapM_metadata, htags, tupleOf_strings]
  rfl

/-- The host writes the specification, and the runner builds the same one of the text. -/
def AcceptedSpec.RoundTrips (s : AcceptedSpec) (B : Builtins) (writer reader : ℕ) : Prop :=
  ∃ raw, s.spec.toJson writer = some raw ∧ fromJson B reader raw = .ok s.built

/-- The limits of the interpreters: an integer has at most 4300 digits, and the payload no more
levels than the writer and the reader have. -/
def AcceptedSpec.Fits (s : AcceptedSpec) (writer reader : ℕ) : Prop :=
  s.IntsShort ∧ depth s.payload ≤ writer ∧ depth s.payload ≤ reader

lemma AcceptedSpec.fits_of_roundTrips {s : AcceptedSpec} {B : Builtins} {writer reader : ℕ}
    (h : s.RoundTrips B writer reader) : s.Fits writer reader := by
  obtain ⟨raw, hraw, hread⟩ := h
  obtain ⟨⟨hwriter, hshort⟩, rfl⟩ := s.toJson_eq_some_iff.mp hraw
  refine ⟨hshort, hwriter, ?_⟩
  -- `from_json` begins with a value that is read
  cases hloads : loads reader (write [] s.payload) with
  | error e =>
      rw [fromJson, hloads] at hread
      cases hread
  | ok v =>
      have hkeys := s.payload_isJson.keysDistinct
      exact ((loads_write_iff (by simp) hkeys (s.all_intShort_iff.mpr hshort)).mp hloads).1

lemma AcceptedSpec.roundTrips_of_fits {s : AcceptedSpec} {writer reader : ℕ}
    (h : s.Fits writer reader) (B : Builtins) : s.RoundTrips B writer reader := by
  obtain ⟨hshort, hwriter, hreader⟩ := h
  refine ⟨_, s.toJson_eq_some_iff.mpr ⟨⟨hwriter, hshort⟩, rfl⟩, s.fromJson_of_loads B ?_⟩
  have hread := @loads_write [] (by simp) _ s.payload_isJson.keysDistinct
    (s.all_intShort_iff.mpr hshort) _ hreader
  rwa [image_eq_self s.payload_isJson] at hread

/-- A specification with this timeout and this note among its metadata. -/
def notedSpec (n : ℤ) (note : Json) (h : All IsJson note) : AcceptedSpec where
  spec := {
    prompt := "hi"
    cwd := String.ofList (PosixPath.ofText "/w".toList).text
    plugins := { profile := some "core", selects := selects_core }
    timeoutS := n
    metadata := [("note", note)] }
  cwd := .ofText "/w".toList
  cwd_text := rfl
  selects := rfl
  metadata_json := List.forall_mem_singleton.mpr h

/-- Lists in each other. -/
def nested : ℕ → Json
  | 0 => .scalar .null
  | n + 1 => .list [nested n]

lemma nested_isJson (n : ℕ) : All IsJson (nested n) := by
  induction n with
  | zero => trivial
  | succ n ih => exact ⟨trivial, ih, trivial⟩

lemma le_depth_nested (n : ℕ) : n ≤ depth (nested n) := by
  induction n with
  | zero => exact Nat.zero_le _
  | succ n ih =>
      rw [nested, depth, levels, levelsMembers, Nat.add_le_add_iff_right]
      exact ih.trans (le_max_left _ _)

end GgRelay
