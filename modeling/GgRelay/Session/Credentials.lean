import Mathlib.Tactic

/-!
Credential bundles, as `SessionManager.submit` handles them: the merge of the stored rows of a
user under the credentials of the request body, and the completeness test
`_credential_bundle_is_complete` of strict mode.
-/

namespace GgRelay

/-- A `dict[str, str]` as the list of its items; no key occurs twice. -/
abbrev Credentials := List (String × String)

/-- `str.isspace` on one character: the characters `str.strip` removes. -/
def isSpace (c : Char) : Bool :=
  let n := c.toNat
  (9 ≤ n && n ≤ 13) || (28 ≤ n && n ≤ 32) || n == 0x85 || n == 0xA0 || n == 0x1680
    || (0x2000 ≤ n && n ≤ 0x200A) || n == 0x2028 || n == 0x2029 || n == 0x202F || n == 0x205F
    || n == 0x3000

/-- `value.strip()` is not empty. -/
def hasText (value : String) : Bool := value.toList.any fun c => !isSpace c

/-- `_credential_bundle_is_complete`: one of the two Anthropic secrets is present and not
blank. -/
def credentialBundleIsComplete (creds : Credentials) : Bool :=
  ["ANTHROPIC_API_KEY", "ANTHROPIC_AUTH_TOKEN"].any fun key =>
    match creds.lookup key with
    | some value => hasText value
    | none => false

/-- `{**db_creds, **runtime_ctx.credentials}`: body values win key by key. -/
def mergeCredentials (db body : Credentials) : Credentials :=
  db.map (fun kv => (kv.1, (body.lookup kv.1).getD kv.2))
    ++ body.filter fun kv => (db.lookup kv.1).isNone

section Merge

variable {db body : Credentials} {k : String}

/-- The rows come with the body's values. -/
lemma lookup_overridden : (db.map fun kv => (kv.1, (body.lookup kv.1).getD kv.2)).lookup k
    = (db.lookup k).map fun v => (body.lookup k).getD v := by
  induction db with
  | nil => rfl
  | cons kv db ih =>
      obtain ⟨k', v⟩ := kv
      rw [List.map_cons]
      by_cases h : k = k'
      · subst h
        simp
      · rw [List.lookup_cons, List.lookup_cons, beq_eq_false_iff_ne.mpr h]
        exact ih

/-- What is kept of the body under a key that is kept. -/
lemma lookup_kept {p : String → Bool} (hp : p k = true) :
    (body.filter fun kv => p kv.1).lookup k = body.lookup k := by
  induction body with
  | nil => rfl
  | cons kv body ih =>
      obtain ⟨k', v⟩ := kv
      rw [List.filter_cons]
      by_cases h : k = k'
      · subst h
        rw [if_pos hp, List.lookup_cons_self, List.lookup_cons_self]
      · rw [List.lookup_cons, beq_eq_false_iff_ne.mpr h, ← ih]
        split_ifs
        · rw [List.lookup_cons, beq_eq_false_iff_ne.mpr h]
        · rfl

/-- **Body values win key by key.** -/
theorem lookup_mergeCredentials :
    (mergeCredentials db body).lookup k = (body.lookup k).or (db.lookup k) := by
  rw [mergeCredentials, List.lookup_append, lookup_overridden]
  cases h : db.lookup k with
  | none => simp [lookup_kept (p := fun k => (db.lookup k).isNone) (by rw [h]; rfl)]
  | some v => cases body.lookup k <;> rfl

end Merge

end GgRelay
