import GgRelay.Auth.ApiKeys
import GgRelay.Lib.Dict
import GgRelay.Lib.Items
import GgRelay.Session.Credentials

/-!
The keys of the environment (`config.py`, `_parse_keys_with_labels`; `auth/env_resolver.py`).

* `tokens` reads the configured text, `parseKeysWithLabels` has what the dictionary comes to;
* `syncToDb` copies it into the table; `syncToDb_keeps` is what holds of it whatever the table has:
  no row changes, each label gets one, and a second time nothing happens;
* `unambiguous_iff` says when the last token of a label decides, `shared_label_is_ambiguous` is a
  text in which it does not.
-/

namespace GgRelay.EnvKeys

/-- The digests: `hashlib.sha256(tok.encode()).hexdigest()`. -/
abbrev Digest := String → String

/-- `[A-Za-z0-9_-]`. -/
def isLabelChar (c : Char) : Bool := c.isAlphanum || c = '_' || c = '-'

/-- `_LABEL_TOKEN`, with its three groups. -/
def matchLabelToken (tok : List Char) : Option (List Char × Char × List Char) :=
  match tok.span isLabelChar with
  | (first, sep :: second) =>
      if first ≠ [] ∧ (sep = ':' ∨ sep = '=') ∧ second ≠ [] ∧ second.all isLabelChar then
        some (first, sep, second)
      else none
  | (_, []) => none

/-- `str.strip`. -/
def strip (cs : List Char) : List Char := ((cs.dropWhile isSpace).reverse.dropWhile isSpace).reverse

variable (sha256 : Digest)

/-- The key of a token, with its label. -/
def readToken (tok : List Char) : String × String :=
  match matchLabelToken tok with
  | some (first, sep, second) =>
      if sep = ':' then (String.ofList first, String.ofList second)
      else (String.ofList second, String.ofList first)
  | none =>
      (String.ofList tok, "key-" ++ String.ofList ((sha256 (String.ofList tok)).toList.take 8))

/-- The tokens, with their keys and labels. -/
def tokens (raw : String) : List (String × String) :=
  (((raw.toList.splitOn ',').map strip).filter (· ≠ [])).map (readToken sha256)

/-- `_parse_keys_with_labels`, with the items of the dictionary. -/
def parseKeysWithLabels (raw : String) : List (String × String) :=
  Items.ofPairs (tokens sha256 raw)

/-! ### The copy in the table -/

/-- The arguments of `EnvKeyResolver` other than the keys. -/
structure Resolver where
  roleMapping : Dict String String
  defaultRole : String := "submitter"

/-- The row of a key. -/
def Resolver.row (r : Resolver) (key : String × String) : ApiKeyRow where
  label := key.2
  keyHash := sha256 key.1
  role := (r.roleMapping.lookup key.2).getD r.defaultRole
  createdByLabel := some "env_bootstrap"
  notes := some "Auto-imported from RELAY_API_KEYS_RAW env"

/-- The summary. -/
structure Summary where
  created : ℕ := 0
  skipped : ℕ := 0
  deriving DecidableEq, Repr

/-- `sync_to_db`; `none` stands for an `ApiKeyConflictError`. -/
def syncToDb (r : Resolver) :
    List (String × String) → ApiKeyTable → Summary → Option (ApiKeyTable × Summary)
  | [], t, n => some (t, n)
  | key :: keys, t, n =>
      match t.getByLabel key.2 with
      | some _ => syncToDb r keys t { n with skipped := n.skipped + 1 }
      | none =>
          (t.create (r.row sha256 key)).bind fun t' =>
            syncToDb r keys t' { n with created := n.created + 1 }

/-! ### What is to hold -/

/-- The key of the last token with this label. -/
def lastKey (raw : String) (label : String) : Option String :=
  ((tokens sha256 raw).map Prod.swap).reverse.lookup label

/-- **The configuration is unambiguous**, over a table. -/
structure Unambiguous (r : Resolver) (raw : String) (t : ApiKeyTable) : Prop where
  /-- a label has the key of its last token, and no other -/
  map : ∀ label key, (parseKeysWithLabels sha256 raw).lookup key = some label ↔
    lastKey sha256 raw label = some key
  synced : ∃ t' n, syncToDb sha256 r (parseKeysWithLabels sha256 raw) t {} = some (t', n) ∧
    t.rows <+: t'.rows ∧
    (∀ label ∈ (tokens sha256 raw).map Prod.snd, t'.rows.countP (·.label = label) = 1) ∧
    (∀ label key, lastKey sha256 raw label = some key → t.getByLabel label = none →
      ∃ row, t'.getByLabel label = some row ∧ row.keyHash = sha256 key) ∧
    ∃ n', syncToDb sha256 r (parseKeysWithLabels sha256 raw) t' {} = some (t', n')

/-! ### The copy -/

section Sync

variable {sha256 : Digest} {r : Resolver} {t : ApiKeyTable}

lemma getByLabel_create {row : ApiKeyRow} {t' : ApiKeyTable} (h : t'.rows = t.rows ++ [row])
    (label : String) :
    t'.getByLabel label
      = (t.getByLabel label).or (if row.label = label then some row else none) := by
  rw [ApiKeyTable.getByLabel, h, List.find?_append, ← ApiKeyTable.getByLabel]
  congr 1
  by_cases hlabel : row.label = label <;> simp [hlabel]

/-- **What the copy comes to**: the rows stay, and a label without a row gets that of the first key
that has it. -/
lemma syncToDb_keeps (keys : List (String × String)) (n : Summary) :
    ∃ t' n', syncToDb sha256 r keys t n = some (t', n') ∧ t.rows <+: t'.rows ∧
      ∀ label, t'.getByLabel label
        = (t.getByLabel label).or ((keys.find? fun key => key.2 = label).map (r.row sha256)) := by
  induction keys generalizing t n with
  | nil => exact ⟨t, n, rfl, List.prefix_refl _, fun label => by simp⟩
  | cons key keys ih =>
      cases hrow : t.getByLabel key.2 with
      | some row =>
          obtain ⟨t', n', hsync, hrows, hlabels⟩ := @ih t { n with skipped := n.skipped + 1 }
          refine ⟨t', n', by rw [syncToDb, hrow, ← hsync], hrows, fun label => ?_⟩
          rw [hlabels]
          by_cases hlabel : key.2 = label
          · rw [← hlabel, hrow, Option.some_or, Option.some_or]
          · rw [List.find?_cons_of_neg (by simpa using hlabel)]
      | none =>
          obtain ⟨t₁, hcreate, hrows₁⟩ := ApiKeyTable.rows_create (r := r.row sha256 key) hrow
          obtain ⟨t', n', hsync, hrows, hlabels⟩ := @ih t₁ { n with created := n.created + 1 }
          refine ⟨t', n', by rw [syncToDb, hrow]; exact hcreate ▸ hsync,
            (List.prefix_append _ _).trans (hrows₁ ▸ hrows), fun label => ?_⟩
          rw [hlabels, getByLabel_create hrows₁, Option.or_assoc]
          congr 1
          by_cases hlabel : key.2 = label
          · rw [if_pos (show (r.row sha256 key).label = label from hlabel), Option.some_or,
              List.find?_cons_of_pos (by simpa using hlabel), Option.map_some]
          · rw [if_neg (show ¬(r.row sha256 key).label = label from hlabel), Option.none_or,
              List.find?_cons_of_neg (by simpa using hlabel)]

/-- Where each label has a row, nothing happens. -/
lemma syncToDb_of_present {keys : List (String × String)}
    (h : ∀ key ∈ keys, t.getByLabel key.2 ≠ none) (n : Summary) :
    ∃ n', syncToDb sha256 r keys t n = some (t, n') := by
  induction keys generalizing n with
  | nil => exact ⟨n, rfl⟩
  | cons key keys ih =>
      obtain ⟨hkey, hkeys⟩ := List.forall_mem_cons.mp h
      obtain ⟨row, hrow⟩ := Option.ne_none_iff_exists'.mp hkey
      obtain ⟨n', hsync⟩ := ih hkeys { n with skipped := n.skipped + 1 }
      exact ⟨n', by rw [syncToDb, hrow, ← hsync]⟩

/-- A label that has a row has one. -/
lemma countP_label {label : String} (h : t.getByLabel label ≠ none) :
    t.rows.countP (·.label = label) = 1 := by
  obtain ⟨row, hrow⟩ := Option.ne_none_iff_exists'.mp h
  obtain ⟨hmem, hlabel⟩ := ApiKeyTable.getByLabel_eq_some.mp hrow
  have hcount := List.count_eq_one_of_mem t.labels (List.mem_map_of_mem hmem)
  rw [hlabel, List.count, List.countP_map] at hcount
  rw [← hcount]
  exact List.countP_congr fun x _ => by simp

end Sync

/-! ### The tokens -/

section Tokens

variable {sha256 : Digest} {raw : String}

lemma lookup_parse_iff {key label : String} :
    (parseKeysWithLabels sha256 raw).lookup key = some label ↔
      ∃ after, (key, label) :: after <:+ tokens sha256 raw ∧ key ∉ after.map Prod.fst := by
  rw [parseKeysWithLabels, Items.lookup_ofPairs, lookup_reverse_iff]

lemma lastKey_iff {key label : String} :
    lastKey sha256 raw label = some key ↔
      ∃ after, (key, label) :: after <:+ tokens sha256 raw ∧ label ∉ after.map Prod.snd := by
  have hswap : ∀ ps : List (String × String), (ps.map Prod.swap).map Prod.swap = ps := fun ps => by
    rw [List.map_map, Prod.swap_swap_eq, List.map_id]
  rw [lastKey, lookup_reverse_iff]
  constructor
  · rintro ⟨after, hend, hlabel⟩
    refine ⟨after.map Prod.swap, ?_, ?_⟩
    · simpa only [hswap, List.map_cons, Prod.swap_prod_mk] using hend.map Prod.swap
    · rw [List.map_map]
      exact hlabel
  · rintro ⟨after, hend, hlabel⟩
    refine ⟨after.map Prod.swap, hend.map Prod.swap, ?_⟩
    rw [List.map_map]
    exact hlabel

/-- A label that occurs has a last token. -/
lemma exists_lastKey {label : String} (h : label ∈ (tokens sha256 raw).map Prod.snd) :
    ∃ key, lastKey sha256 raw label = some key := by
  by_contra hnone
  refine not_mem_keys_of_lookup (Option.eq_none_iff_forall_ne_some.mpr fun key hkey => ?_)
    (show label ∈ ((tokens sha256 raw).map Prod.swap).map Prod.fst by
      rw [List.map_map]
      exact h)
  exact hnone ⟨key, hkey⟩

end Tokens

/-- The configuration is unambiguous exactly when a token is the last one with its label just in
case it is the last one with its key. -/
theorem unambiguous_iff (sha256 : Digest) (r : Resolver) (raw : String) (t : ApiKeyTable) :
    Unambiguous sha256 r raw t ↔
      ∀ key label after, (key, label) :: after <:+ tokens sha256 raw →
        (label ∉ after.map Prod.snd ↔ key ∉ after.map Prod.fst) := by
  constructor
  · intro h key label after hend
    constructor
    · intro hlabel
      obtain ⟨after', hend', hkey⟩ :=
        lookup_parse_iff.mp ((h.map label key).mpr (lastKey_iff.mpr ⟨after, hend, hlabel⟩))
      rwa [end_unique hend hend' hlabel hkey]
    · intro hkey
      obtain ⟨after', hend', hlabel⟩ :=
        lastKey_iff.mp ((h.map label key).mp (lookup_parse_iff.mpr ⟨after, hend, hkey⟩))
      rwa [end_unique hend hend' hkey hlabel]
  · intro h
    have hmap : ∀ label key, (parseKeysWithLabels sha256 raw).lookup key = some label ↔
        lastKey sha256 raw label = some key := by
      intro label key
      rw [lookup_parse_iff, lastKey_iff]
      exact exists_congr fun after => and_congr_right fun hend => (h key label after hend).symm
    have hmem : ∀ label key, (key, label) ∈ parseKeysWithLabels sha256 raw ↔
        lastKey sha256 raw label = some key := fun label key =>
      (Items.mem_iff_lookup (Items.nodup_ofPairs _)).trans (hmap label key)
    -- the first key with a label is its last one: the dictionary has no other
    have hfind : ∀ label key, lastKey sha256 raw label = some key →
        (parseKeysWithLabels sha256 raw).find? (fun k => k.2 = label) = some (key, label) := by
      intro label key hkey
      have hsome : ((parseKeysWithLabels sha256 raw).find? fun k => k.2 = label).isSome := by
        rw [List.find?_isSome]
        exact ⟨(key, label), (hmem label key).mpr hkey, by simp⟩
      obtain ⟨⟨key', label'⟩, hfound⟩ := Option.isSome_iff_exists.mp hsome
      obtain rfl : label' = label := by simpa using List.find?_some hfound
      have hkey' := (hmem label' key').mp (List.mem_of_find?_eq_some hfound)
      rw [hfound, Option.some.inj (hkey'.symm.trans hkey)]
    obtain ⟨t', n, hsync, hrows, hlabels⟩ :=
      @syncToDb_keeps sha256 r t (parseKeysWithLabels sha256 raw) {}
    refine ⟨hmap, t', n, hsync, hrows, ?_, ?_, ?_⟩
    · intro label hlabel
      obtain ⟨key, hkey⟩ := exists_lastKey hlabel
      refine countP_label ?_
      rw [hlabels, hfind label key hkey]
      simp
    · intro label key hkey hnone
      exact ⟨r.row sha256 (key, label), by rw [hlabels, hnone, hfind label key hkey]; rfl, rfl⟩
    · refine syncToDb_of_present (fun key hkey => ?_) _
      rw [hlabels, hfind key.2 key.1 ((hmem key.2 key.1).mp hkey)]
      simp

/-- The digests of two keys. -/
def digests : Digest
  | "k1" => "6ab9f1eb8f7d3388f4f9d586f66e99fd54080df2c446f0e58668b09c08a16dd0"
  | "k2" => "015f7e6bc5aeaf483724089e9252cc13b50951a6b69412522765cff4d780306e"
  | _ => ""

/-- Two keys that share a label: both have it. -/
theorem shared_label_is_ambiguous :
    ¬Unambiguous digests ⟨∅, "submitter"⟩ "k1:alice,k2:alice" ApiKeyTable.empty := by
  intro h
  have hfirst : (parseKeysWithLabels digests "k1:alice,k2:alice").lookup "k1" = some "alice" := by
    decide +kernel
  have hlast : lastKey digests "k1:alice,k2:alice" "alice" = some "k2" := by decide +kernel
  have hkey := hlast.symm.trans ((h.map "alice" "k1").mp hfirst)
  simp at hkey

end GgRelay.EnvKeys
