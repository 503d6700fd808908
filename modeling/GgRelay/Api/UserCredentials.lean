import GgRelay.Api.Roles
import GgRelay.Lib.System
import GgRelay.Lib.UniqueRows
import GgRelay.Session.Attribution

/-!
The upstream credentials that users keep with the relay: the `user_credentials` table, its store
(`store/user_credentials.py`) and the routes over it (`api/routers/user_credentials.py`), for any
number of processes, each with its own encryption key, that share the table.

* a request is admitted, writes in one transaction, and then waits for its audit row; `system` has
  the requests of all processes interleaved at these points;
* `vault` is what the admitted writes come to: the key and the value last written for a user and a
  name; `agrees_run` says that the table holds it, encrypted;
* `handed_iff` is where a credential of a session comes from, `stored_or_bricked` that no stored
  value is lost silently.
-/

namespace GgRelay

namespace UserCredentials

open Attribution Cost Roles

/-! ### The store -/

/-- The `cryptography` package and `hashlib`: a token is encrypted with fresh randomness, and
decrypts with its key to what was encrypted. -/
structure Cipher where
  encrypt : (key : String) → (entropy : ℕ) → (value : String) → String
  decrypt : (key : String) → (token : String) → Decrypted
  /-- `compute_key_fingerprint` -/
  fingerprint : (key : String) → String
  decrypt_encrypt : ∀ key entropy value,
    decrypt key (encrypt key entropy value) = .text value

/-- A row of `user_credentials`; `get_for_user` reads the `CredentialRow`. -/
structure StoredRow extends CredentialRow where
  id : ℕ
  createdAt : Time
  updatedAt : Time
  createdByLabel : String
  notes : Option String

/-- `uq_user_credentials_label_env`. -/
def StoredRow.key (r : StoredRow) : String × String := (r.userLabel, r.secret.envName)

/-- The columns that the listings select. -/
structure Metadata where
  id : ℕ
  userLabel : String
  envName : String
  keyFingerprint : String
  createdAt : Time
  updatedAt : Time
  createdByLabel : String
  notes : Option String
  deriving DecidableEq, Repr

/-- `_project_metadata`. -/
def StoredRow.metadata (r : StoredRow) : Metadata where
  id := r.id
  userLabel := r.userLabel
  envName := r.secret.envName
  keyFingerprint := r.secret.keyFingerprint
  createdAt := r.createdAt
  updatedAt := r.updatedAt
  createdByLabel := r.createdByLabel
  notes := r.notes

/-- The table. -/
abbrev CredentialTable := UniqueRows StoredRow.key

/-- A process: `RELAY_CREDENTIALS_ENCRYPTION_KEY`, unless the feature is switched off, and whether
it has an audit service. -/
structure Process where
  rawKey : Option String
  hasAudit : Bool

/-- The key, if the store is enabled. -/
def Process.key (p : Process) : Option String := p.rawKey.filter (· ≠ "")

/-- `build_fernet_from_key`. -/
def buildFernet (C : Cipher) (p : Process) : CredentialsStore where
  fernet := p.key.map C.decrypt
  keyFingerprint := p.key.map C.fingerprint

/-- The listings are ordered by the two columns of the index. -/
def byUserAndName (a b : Metadata) : Prop :=
  a.userLabel < b.userLabel ∨ a.userLabel = b.userLabel ∧ a.envName ≤ b.envName

instance : DecidableRel byUserAndName := fun _ _ => inferInstanceAs (Decidable (_ ∨ _))

section Store

variable (C : Cipher) (t : CredentialTable)

/-- `list_for_user`. -/
def listForUser (label : String) : List Metadata :=
  ((t.rows.map StoredRow.metadata).filter fun m => m.userLabel = label).insertionSort byUserAndName

/-- `list_all`. -/
def listAll : List Metadata := (t.rows.map StoredRow.metadata).insertionSort byUserAndName

/-- `list_bricked`; without a key, every row is one. -/
def listBricked (keyFingerprint : Option String) : List Metadata :=
  ((t.rows.map StoredRow.metadata).filter fun m =>
    keyFingerprint ≠ some m.keyFingerprint).insertionSort byUserAndName

/-- What `upsert` inserts. -/
structure Draft where
  userLabel : String
  envName : String
  value : String
  actorLabel : String
  notes : Option String

/-- The row that is inserted. -/
def Draft.row (d : Draft) (key : String) (now : Time) (entropy id : ℕ) : StoredRow where
  userLabel := d.userLabel
  secret := ⟨d.envName, C.encrypt key entropy d.value, C.fingerprint key⟩
  id := id
  createdAt := now
  updatedAt := now
  createdByLabel := d.actorLabel
  notes := d.notes

/-- What becomes of the row that is there: `created_at` is kept. -/
def StoredRow.overwrite (new old : StoredRow) : StoredRow :=
  { old with
    secret := { new.secret with envName := old.secret.envName }
    updatedAt := new.updatedAt
    createdByLabel := new.createdByLabel
    notes := new.notes }

lemma key_overwrite (new old : StoredRow) : (new.overwrite old).key = old.key := rfl

/-- `upsert`, without its result. -/
def upsert (row : StoredRow) : CredentialTable := t.upsert row row.overwrite (key_overwrite row)

/-- `delete`, without its result. -/
def delete (userLabel envName : String) : CredentialTable :=
  t.delete fun r => r.key = (userLabel, envName)

lemma get?_delete (userLabel envName : String) (k : String × String) :
    (delete t userLabel envName).get? k = if k = (userLabel, envName) then none else t.get? k := by
  rw [delete, UniqueRows.get?_delete]
  cases hget : t.get? k with
  | none => rw [Option.filter_none, ite_self]
  | some r =>
      obtain rfl := (UniqueRows.get?_eq_some.mp hget).2
      by_cases hk : r.key = (userLabel, envName)
      · rw [Option.filter_some_neg (by simpa using hk), if_pos hk]
      · rw [Option.filter_some_pos (by simpa using hk), if_neg hk]

end Store

/-! ### The routes -/

/-- `ALLOWED_ENV_NAMES`. -/
def ALLOWED_ENV_NAMES : List String :=
  ["ANTHROPIC_API_KEY", "ANTHROPIC_BASE_URL", "ANTHROPIC_AUTH_TOKEN", "AWS_ACCESS_KEY_ID",
    "AWS_SECRET_ACCESS_KEY", "AWS_SESSION_TOKEN", "AWS_REGION", "GOOGLE_APPLICATION_CREDENTIALS",
    "CLOUD_ML_REGION", "ANTHROPIC_VERTEX_PROJECT_ID"]

/-- `_length_class`. -/
def lengthClass (value : String) : String :=
  if value.length ≤ 32 then "short"
  else if value.length ≤ 128 then "medium"
  else if value.length ≤ 1024 then "long"
  else "huge"

/-- A PUT, with its `CredentialUpsert`, or a DELETE. -/
inductive Mutation where
  | upsert (value : String) (notes : Option String)
  | delete
  deriving DecidableEq, Repr

/-- The bounds of the fields of `CredentialUpsert`. -/
def Mutation.valid : Mutation → Bool
  | .upsert value notes =>
      1 ≤ value.length && value.length ≤ 4096 && notes.all fun n => n.length ≤ 512
  | .delete => true

/-- A request to one of the routes that write: `/me/credentials/{env_name}`, or
`/admin/credentials/{user_label}/{env_name}` with its `user`. -/
structure Request where
  caller : Caller
  user : Option String
  envName : String
  mutation : Mutation

namespace Request

variable (q : Request)

/-- The role of the route. -/
def minRole : String := if q.user.isSome then "admin" else "submitter"

/-- The `actor_label`: `api_key_label or "anon"`, of an admin `or "admin"`. -/
def actor : String :=
  if q.user.isSome then (q.caller.apiKeyLabel.filter (· ≠ "")).getD "admin" else q.caller.label

/-- The user whose credential it is. -/
def target : String := q.user.getD q.caller.label

/-- The row it is about. -/
def key : String × String := (q.target, q.envName)

end Request

/-- What the routes raise. -/
inductive Rejection where
  | forbidden (detail : Forbidden)
  /-- 422 -/
  | unprocessable
  | envNameNotAllowed (envName : String) (allowed : List String)
  | userCredentialsDisabled
  /-- 500 -/
  | serverError
  deriving DecidableEq, Repr

/-- What is between a request and the table; the key it will be encrypted with. -/
def permit (p : Process) (q : Request) : Except Rejection String :=
  match requireRole q.minRole q.caller with
  | .error detail => .error (.forbidden detail)
  | .ok _ =>
      if ¬q.mutation.valid then .error .unprocessable
      else if q.envName ∉ ALLOWED_ENV_NAMES then
        .error (.envNameNotAllowed q.envName (ALLOWED_ENV_NAMES.insertionSort (· ≤ ·)))
      else
        match p.key with
        | none => .error .userCredentialsDisabled
        | some key => .ok key

/-- A row of the audit log. -/
structure AuditEntry where
  actor : String
  action : String
  targetId : String
  envName : String
  valueLengthClass : Option String
  rowRemoved : Option Bool
  selfService : Bool
  victimLabel : Option String
  deriving DecidableEq, Repr

/-- The audit row of a request; `removed` is what `delete` has returned. -/
def Request.auditEntry (q : Request) (removed : Bool) : AuditEntry where
  actor := q.actor
  action :=
    match q.mutation, q.user with
    | .upsert _ _, none => "user_credential_upsert"
    | .upsert _ _, some _ => "user_credential_admin_upsert"
    | .delete, none => "user_credential_delete"
    | .delete, some _ => "user_credential_admin_delete"
  targetId := s!"{q.target}/{q.envName}"
  envName := q.envName
  valueLengthClass :=
    match q.mutation with
    | .upsert value _ => some (lengthClass value)
    | .delete => none
  rowRemoved :=
    match q.mutation with
    | .upsert _ _ => none
    | .delete => some removed
  selfService := q.user.isNone
  victimLabel := q.user

/-- What a client gets. -/
inductive Response where
  | row (metadata : Option Metadata)
  | noContent
  | credentials (userLabel : Option String) (rows : List Metadata)
  | bricked (rows : List (ℕ × String × String × String × Time))
  | rejected (r : Rejection)
  deriving DecidableEq, Repr

/-! ### All requests together -/

/-- The table, the requests that have written and wait for their audit row, the audit log, and what
the clients have got. -/
structure State where
  table : CredentialTable := .empty
  waiting : List (AuditEntry × Response) := []
  audit : List AuditEntry := []
  responses : List Response := []

/-- What happens next. -/
inductive Label where
  /-- a request up to its transaction, which fails if `dbFails` -/
  | mutate (p : Process) (q : Request) (now : Time) (entropy id : ℕ) (dbFails : Bool)
  /-- the audit row of a request that waits for it -/
  | audited (i : ℕ) (raised : Bool)
  | listMine (p : Process) (c : Caller)
  | listAll (p : Process) (c : Caller)
  | listBricked (p : Process) (c : Caller)

namespace State

variable (C : Cipher) (s : State)

/-- A response goes out. -/
def respond (r : Response) : State := { s with responses := s.responses ++ [r] }

/-- The transaction of a request that is admitted, and the response it is to get. -/
def written (q : Request) (key : String) (now : Time) (entropy id : ℕ) :
    CredentialTable × Response :=
  match q.mutation with
  | .upsert value notes =>
      let draft : Draft := ⟨q.target, q.envName, value, q.actor, notes⟩
      let table := upsert s.table (draft.row C key now entropy id)
      (table, .row ((table.get? q.key).map StoredRow.metadata))
  | .delete => (delete s.table q.target q.envName, .noContent)

/-- A request of one of the four mutating routes. -/
def mutate (p : Process) (q : Request) (now : Time) (entropy id : ℕ) (dbFails : Bool) : State :=
  match permit p q with
  | .error r => s.respond (.rejected r)
  | .ok key =>
      if dbFails then s.respond (.rejected .serverError)
      else
        let w := s.written C q key now entropy id
        if p.hasAudit then
          { s with
            table := w.1
            waiting := s.waiting ++ [(q.auditEntry (s.table.get? q.key).isSome, w.2)] }
        else { s with table := w.1 }.respond w.2

/-- A listing, for whoever has the role. -/
def listing (p : Process) (c : Caller) (minRole : String) (r : Response) : State :=
  match requireRole minRole c with
  | .error detail => s.respond (.rejected (.forbidden detail))
  | .ok _ => s.respond (if p.key.isSome then r else .rejected .userCredentialsDisabled)

/-- One step. -/
def step : Label → Option State
  | .mutate p q now entropy id dbFails => some (s.mutate C p q now entropy id dbFails)
  | .audited i raised =>
      s.waiting[i]?.map fun w =>
        let s := { s with waiting := s.waiting.eraseIdx i }
        -- the routes do not catch what `record` raises
        if raised then s.respond (.rejected .serverError)
        else { s with audit := s.audit ++ [w.1] }.respond w.2
  | .listMine p c =>
      some (s.listing p c "submitter" (.credentials (some c.label) (listForUser s.table c.label)))
  | .listAll p c =>
      some (s.listing p c "admin" (.credentials none (UserCredentials.listAll s.table)))
  | .listBricked p c =>
      some (s.listing p c "admin" (.bricked
        ((UserCredentials.listBricked s.table (buildFernet C p).keyFingerprint).map fun m =>
          (m.id, m.userLabel, m.envName, m.keyFingerprint, m.updatedAt))))

end State

/-- The processes and their clients. -/
def system (C : Cipher) : System State Label where
  init := fun s => s = {}
  step := State.step C

/-! ### What the writes come to -/

/-- What a write leaves in its row: a key, and the value that was encrypted with it. -/
def Mutation.sealed (key : String) : Mutation → Option (String × String)
  | .upsert value _ => some (key, value)
  | .delete => none

/-- The request of a step that writes, and the key of its process. -/
def Label.write? : Label → Option (Request × String)
  | .mutate p q _ _ _ false => (permit p q).toOption.map fun key => (q, key)
  | _ => none

/-- The contents of all rows after a step. -/
def Label.record (l : Label) (contents : String × String → Option (String × String)) :
    String × String → Option (String × String) :=
  match l.write? with
  | none => contents
  | some (q, key) => Function.update contents q.key (q.mutation.sealed key)

/-- The contents of all rows after a run. -/
def vault (ls : List Label) : String × String → Option (String × String) :=
  ls.foldl (fun contents l => l.record contents) fun _ => none

/-- The row has these contents. -/
def Holds (C : Cipher) : Option StoredRow → Option (String × String) → Prop
  | none, none => True
  | some r, some (key, value) =>
      r.secret.keyFingerprint = C.fingerprint key ∧
        ∃ entropy, r.secret.valueEncrypted = C.encrypt key entropy value
  | _, _ => False

section Run

variable {C : Cipher} {s s' : State} {l : Label} {ls : List Label}

lemma table_respond (s : State) (r : Response) : (s.respond r).table = s.table := rfl

lemma table_listing {p : Process} {c : Caller} {minRole : String} {r : Response} :
    (s.listing p c minRole r).table = s.table := by
  rw [State.listing]
  split <;> rfl

/-- A step that does not write leaves the table as it is. -/
lemma table_of_write?_eq_none (hl : l.write? = none) (h : s.step C l = some s') :
    s'.table = s.table := by
  cases l with
  | mutate p q now entropy id dbFails =>
      obtain rfl := Option.some.inj h
      rw [State.mutate]
      cases hpermit : permit p q with
      | error r => rfl
      | ok key =>
          cases dbFails with
          | true => rfl
          | false => simp [Label.write?, hpermit, Except.toOption] at hl
  | audited i raised =>
      obtain ⟨w, -, rfl⟩ := Option.map_eq_some_iff.mp h
      cases raised <;> rfl
  | listMine | listAll | listBricked =>
      obtain rfl := Option.some.inj h
      exact table_listing

/-- A step that writes commits the transaction of its request. -/
lemma table_of_write?_eq_some {q : Request} {key : String} (hl : l.write? = some (q, key))
    (h : s.step C l = some s') :
    ∃ now entropy id, s'.table = (s.written C q key now entropy id).1 := by
  cases l with
  | mutate p q' now entropy id dbFails =>
      cases dbFails with
      | true => simp [Label.write?] at hl
      | false =>
          obtain ⟨key', hpermit, heq⟩ := Option.map_eq_some_iff.mp hl
          obtain ⟨rfl, rfl⟩ := Prod.mk.inj heq
          have hpermit' : permit p q' = .ok key' := by
            cases hok : permit p q' with
            | error r => simp [hok, Except.toOption] at hpermit
            | ok key'' => simpa [hok, Except.toOption] using hpermit
          obtain rfl := Option.some.inj h
          refine ⟨now, entropy, id, ?_⟩
          rw [State.mutate, hpermit']
          simp only [Bool.false_eq_true, if_false]
          split_ifs <;> rfl
  | audited | listMine | listAll | listBricked => simp [Label.write?] at hl

/-- The transaction of a request writes its own row. -/
lemma holds_written {q : Request} {key : String} {now : Time} {entropy id : ℕ}
    {contents : String × String → Option (String × String)}
    (h : ∀ k, Holds C (s.table.get? k) (contents k)) (k : String × String) :
    Holds C ((s.written C q key now entropy id).1.get? k)
      (Function.update contents q.key (q.mutation.sealed key) k) := by
  have hother := h k
  rw [State.written, Function.update_apply]
  cases q.mutation with
  | upsert value notes =>
      have hkey : ∀ d : Draft, (d.userLabel, d.envName) = q.key →
          (d.row C key now entropy id).key = q.key := fun _ hd => hd
      simp only [upsert, Mutation.sealed]
      rw [UniqueRows.get?_upsert, hkey _ rfl]
      split_ifs
      · cases s.table.get? k with
        | none => exact ⟨rfl, entropy, rfl⟩
        | some old => exact ⟨rfl, entropy, rfl⟩
      · exact hother
  | delete =>
      simp only [Mutation.sealed]
      rw [get?_delete]
      split_ifs with hk hk' hk'
      · trivial
      · exact absurd hk hk'
      · exact absurd hk' hk
      · exact hother

/-- One step keeps the table at what the writes come to. -/
lemma holds_step {contents : String × String → Option (String × String)}
    (h : ∀ k, Holds C (s.table.get? k) (contents k)) (hstep : s.step C l = some s')
    (k : String × String) : Holds C (s'.table.get? k) (l.record contents k) := by
  rw [Label.record]
  cases hl : l.write? with
  | none =>
      rw [table_of_write?_eq_none hl hstep]
      exact h k
  | some w =>
      obtain ⟨now, entropy, id, htable⟩ := table_of_write?_eq_some hl hstep
      rw [htable]
      exact holds_written h k

/-- **The table holds, encrypted, what was last written.** -/
theorem holds_run (h : (system C).run {} ls = some s) (k : String × String) :
    Holds C (s.table.get? k) (vault ls k) := by
  suffices hrun : ∀ (s₀ : State) (contents : String × String → Option (String × String)),
      (∀ k, Holds C (s₀.table.get? k) (contents k)) → (system C).run s₀ ls = some s →
        ∀ k, Holds C (s.table.get? k)
          (ls.foldl (fun contents l => l.record contents) contents k) from
    hrun {} (fun _ => none) (fun _ => trivial) h k
  clear h k
  induction ls with
  | nil =>
      intro s₀ contents hs₀ h
      obtain rfl := Option.some.inj h
      exact hs₀
  | cons l ls ih =>
      intro s₀ contents hs₀ h
      obtain ⟨s₁, hstep, hrest⟩ := Option.bind_eq_some_iff.mp h
      exact ih s₁ _ (fun k => holds_step hs₀ hstep k) hrest

end Run

/-! ### What a session is handed -/

/-- The value, if it was encrypted with this key. -/
def opened (key : String) (contents : Option (String × String)) : Option String :=
  (contents.filter fun e => e.1 = key).map Prod.snd

/-- The request is the last one that wrote to the row, and this is what it wrote. -/
def LastWrote (ls : List Label) (q : Request) (k : String × String) (key value : String) : Prop :=
  ∃ pre l post, ls = pre ++ l :: post ∧ l.write? = some (q, key) ∧ q.key = k ∧
    q.mutation.sealed key = some (key, value) ∧
    ∀ l' ∈ post, ∀ w, l'.write? = some w → w.1.key ≠ k

/-- The request is one of the user, who is a submitter at least, or of an administrator. -/
def Authorised (q : Request) (user : String) : Prop :=
  q.user = none ∧ q.caller.label = user ∧ 1 ≤ roleRank q.caller.resolveRole ∨
    q.user = some user ∧ 2 ≤ roleRank q.caller.resolveRole

section Handed

variable {C : Cipher} {p : Process} {t : CredentialTable} {ls : List Label} {key : String}
  {contents : String × String → Option (String × String)}

lemma lookup_setItem {out : Credentials} {k v n : String} :
    (setItem out k v).lookup n = if n = k then some v else out.lookup n := by
  rw [setItem]
  split_ifs with hk hn hn
  · subst hn
    induction out with
    | nil => simp at hk
    | cons kv out ih =>
        obtain ⟨k', v'⟩ := kv
        rw [List.lookup_cons] at hk
        rw [List.map_cons]
        by_cases hkey : k' = n
        · subst hkey
          simp
        · rw [beq_eq_false_iff_ne.mpr (Ne.symm hkey)] at hk
          rw [if_neg hkey, List.lookup_cons, beq_eq_false_iff_ne.mpr (Ne.symm hkey)]
          exact ih hk
  · clear hk
    induction out with
    | nil => rfl
    | cons kv out ih =>
        obtain ⟨k', v'⟩ := kv
        rw [List.map_cons, List.lookup_cons, List.lookup_cons, ← ih]
        by_cases hkey : k' = k
        · subst hkey
          simp only [if_true, beq_eq_false_iff_ne.mpr hn]
        · simp only [hkey, if_false]
  · subst hn
    rw [List.lookup_append, Option.not_isSome_iff_eq_none.mp hk, List.lookup_cons_self]
    rfl
  · rw [List.lookup_append, List.lookup_cons, beq_eq_false_iff_ne.mpr hn]
    simp

/-- The rows of a user in turn: each name comes with the value of its row. -/
lemma foldlM_readSecret {store : CredentialsStore} {decrypt : String → Decrypted}
    {value : Secret → Option String} {rows : List Secret}
    (h : ∀ r ∈ rows, ∀ out, readSecret store decrypt out r
      = .ok ((value r).elim out fun v => setItem out r.envName v))
    (hnodup : (rows.map Secret.envName).Nodup) (out : Credentials) :
    ∃ out', rows.foldlM (readSecret store decrypt) out = .ok out' ∧ ∀ n,
      out'.lookup n = ((rows.find? fun r => r.envName = n).bind value).or (out.lookup n) := by
  induction rows generalizing out with
  | nil => exact ⟨out, rfl, fun n => rfl⟩
  | cons r rows ih =>
      rw [List.map_cons, List.nodup_cons] at hnodup
      obtain ⟨out', hrest, hlookup⟩ := ih (fun r hr => h r (List.mem_cons_of_mem _ hr)) hnodup.2
        ((value r).elim out fun v => setItem out r.envName v)
      refine ⟨out', ?_, fun n => ?_⟩
      · rw [List.foldlM_cons, h r List.mem_cons_self]
        exact hrest
      · rw [hlookup, List.find?_cons]
        by_cases hn : r.envName = n
        · subst hn
          have hnone : rows.find? (fun r' => r'.envName = r.envName) = none := by
            rw [List.find?_eq_none]
            intro r' hr' hname
            exact hnodup.1 (List.mem_map.mpr ⟨r', hr', by simpa using hname⟩)
          rw [hnone]
          cases hvalue : value r with
          | none => simp [hvalue]
          | some v => simp [hvalue, lookup_setItem]
        · have hkeep : (((value r).elim out fun v => setItem out r.envName v)).lookup n
              = out.lookup n := by
            cases value r with
            | none => rfl
            | some v => rw [Option.elim_some, lookup_setItem, if_neg (Ne.symm hn)]
          simp [hn, hkeep]

/-- The rows that `get_for_user` selects have different names, and each is the row of its name. -/
lemma rowsOf_eq (label : String) :
    rowsOf (t.rows.map StoredRow.toCredentialRow) label
      = (t.rows.filter fun r => r.userLabel = label).map fun r => r.secret := by
  rw [rowsOf, List.filter_map, List.map_map]
  rfl

lemma nodup_envName (label : String) :
    ((rowsOf (t.rows.map StoredRow.toCredentialRow) label).map Secret.envName).Nodup := by
  rw [rowsOf_eq, List.map_map]
  have hnodup : ((t.rows.filter fun r => r.userLabel = label).map StoredRow.key).Nodup :=
    t.unique.sublist (List.filter_sublist.map _)
  refine List.Nodup.map_on (fun r hr r' hr' hname => ?_) (List.Nodup.of_map _ hnodup)
  have hlabel : r.userLabel = r'.userLabel := by
    have h := (List.mem_filter.mp hr).2
    have h' := (List.mem_filter.mp hr').2
    simp only [decide_eq_true_eq] at h h'
    rw [h, h']
  exact List.inj_on_of_nodup_map hnodup hr hr' (Prod.ext hlabel hname)

lemma find?_rowsOf (label n : String) :
    (rowsOf (t.rows.map StoredRow.toCredentialRow) label).find? (fun r => r.envName = n)
      = (t.get? (label, n)).map fun r => r.secret := by
  rw [rowsOf_eq, List.find?_map, List.find?_filter, UniqueRows.get?]
  congr 2
  funext r
  simp [StoredRow.key, Prod.ext_iff]

/-- What the store reads of a row. -/
def readValue (C : Cipher) (key : String) (r : Secret) : Option String :=
  if C.fingerprint key ≠ r.keyFingerprint then none
  else
    match C.decrypt key r.valueEncrypted with
    | .text v => some v
    | _ => none

/-- `get_for_user` finds, under each name, what was last written under it with the key of the
process. -/
lemma lookup_getForUser (hkey : p.key = some key)
    (hholds : ∀ k, Holds C (t.get? k) (contents k))
    (hfp : ∀ k key' v, contents k = some (key', v) → C.fingerprint key' = C.fingerprint key →
      key' = key) {label : String} (hlabel : label ≠ "") :
    ∃ out, getForUser (buildFernet C p) (.ok (t.rows.map StoredRow.toCredentialRow)) label
        = .ok out ∧
      ∀ n, out.lookup n = opened key (contents (label, n)) := by
  have hvalue : ∀ n r, t.get? (label, n) = some r →
      readValue C key r.secret = opened key (contents (label, n)) ∧
        ∀ out, readSecret (buildFernet C p) (C.decrypt key) out r.secret
          = .ok ((readValue C key r.secret).elim out fun v => setItem out r.secret.envName v) := by
    intro n r hr
    have hrow := hholds (label, n)
    rw [hr] at hrow
    cases hcontents : contents (label, n) with
    | none =>
        rw [hcontents] at hrow
        exact hrow.elim
    | some e =>
        obtain ⟨key', v⟩ := e
        rw [hcontents] at hrow
        obtain ⟨hprint, entropy, htoken⟩ := hrow
        by_cases hsame : C.fingerprint key' = C.fingerprint key
        · obtain rfl := hfp _ _ _ hcontents hsame
          have hread : readValue C key' r.secret = some v := by
            rw [readValue, hprint, htoken, C.decrypt_encrypt]
            simp
          refine ⟨by simp [hread, opened], fun out => ?_⟩
          rw [hread, readSecret, htoken, C.decrypt_encrypt]
          simp [buildFernet, hkey, hprint]
        · have hread : readValue C key r.secret = none := by
            rw [readValue, hprint, if_pos (Ne.symm hsame)]
          have hne : key' ≠ key := fun h => hsame (by rw [h])
          refine ⟨by simp [hread, opened, hne], fun out => ?_⟩
          rw [hread, readSecret, if_pos]
          · rfl
          · simp [buildFernet, hkey, hprint, Ne.symm hsame]
  have hrows : ∀ r ∈ rowsOf (t.rows.map StoredRow.toCredentialRow) label, ∀ out,
      readSecret (buildFernet C p) (C.decrypt key) out r
        = .ok ((readValue C key r).elim out fun v => setItem out r.envName v) := by
    intro r hr out
    rw [rowsOf_eq] at hr
    obtain ⟨row, hrow, rfl⟩ := List.mem_map.mp hr
    obtain ⟨hmem, hlabel⟩ := List.mem_filter.mp hrow
    have hget : t.get? (label, row.secret.envName) = some row :=
      UniqueRows.get?_eq_some.mpr ⟨hmem, Prod.ext (of_decide_eq_true hlabel) rfl⟩
    exact (hvalue _ row hget).2 out
  obtain ⟨out, hfold, hlookup⟩ := foldlM_readSecret hrows (nodup_envName label) []
  refine ⟨out, ?_, fun n => ?_⟩
  · have hfernet : (buildFernet C p).fernet = some (C.decrypt key) := by rw [buildFernet, hkey]; rfl
    rw [getForUser, hfernet]
    simp only [if_neg hlabel]
    exact hfold
  · rw [hlookup, find?_rowsOf, List.lookup_nil, Option.or_none]
    cases hget : t.get? (label, n) with
    | none =>
        have hrow := hholds (label, n)
        rw [hget] at hrow
        cases hcontents : contents (label, n) with
        | none => rfl
        | some e =>
            rw [hcontents] at hrow
            exact hrow.elim
    | some r => exact (hvalue n r hget).1

end Handed

section Handed

variable {C : Cipher} {p : Process} {s : State} {ls : List Label} {l : Label} {q : Request}
  {k : String × String} {key value : String}

/-- A request that writes was allowed to. -/
lemma authorised_of_write? (h : l.write? = some (q, key)) :
    q.envName ∈ ALLOWED_ENV_NAMES ∧ Authorised q q.target := by
  cases l with
  | mutate p' q' now entropy id dbFails =>
      cases dbFails with
      | true => simp [Label.write?] at h
      | false =>
          obtain ⟨key', hpermit, heq⟩ := Option.map_eq_some_iff.mp h
          obtain ⟨rfl, rfl⟩ := Prod.mk.inj heq
          rw [permit] at hpermit
          cases hrole : requireRole q'.minRole q'.caller with
          | error detail => simp [hrole, Except.toOption] at hpermit
          | ok role =>
              have hrank := (requireRole_eq_ok.mp hrole).1
              rw [hrole] at hpermit
              have hname : q'.envName ∈ ALLOWED_ENV_NAMES := by
                by_contra hname
                simp only [if_pos hname] at hpermit
                split_ifs at hpermit <;> simp [Except.toOption] at hpermit
              refine ⟨hname, ?_⟩
              rw [Authorised, Request.target]
              rw [Request.minRole] at hrank
              cases huser : q'.user with
              | none =>
                  rw [huser] at hrank
                  exact Or.inl ⟨rfl, rfl, hrank⟩
              | some user =>
                  rw [huser] at hrank
                  exact Or.inr ⟨rfl, hrank⟩
  | audited | listMine | listAll | listBricked => simp [Label.write?] at h

/-- The last write of a run with one more step. -/
lemma lastWrote_concat :
    LastWrote (ls ++ [l]) q k key value ↔
      l.write? = some (q, key) ∧ q.key = k ∧ q.mutation.sealed key = some (key, value) ∨
        (∀ w, l.write? = some w → w.1.key ≠ k) ∧ LastWrote ls q k key value := by
  constructor
  · rintro ⟨pre, l₀, post, hls, hwrite, hkey, hsealed, hpost⟩
    rcases List.eq_nil_or_concat post with rfl | ⟨post, l', rfl⟩
    · obtain ⟨-, heq⟩ := List.append_inj' hls rfl
      obtain rfl := List.singleton_inj.mp heq
      exact Or.inl ⟨hwrite, hkey, hsealed⟩
    · rw [List.concat_eq_append] at hls hpost
      rw [← List.cons_append, ← List.append_assoc] at hls
      obtain ⟨rfl, heq⟩ := List.append_inj' hls rfl
      obtain rfl := List.singleton_inj.mp heq
      refine Or.inr ⟨hpost l (by simp), pre, l₀, post, rfl, hwrite, hkey, hsealed, ?_⟩
      exact fun l' hl' => hpost l' (List.mem_append_left _ hl')
  · rintro (⟨hwrite, hkey, hsealed⟩ | ⟨hother, pre, l₀, post, rfl, hwrite, hkey, hsealed, hpost⟩)
    · exact ⟨ls, l, [], rfl, hwrite, hkey, hsealed, fun l' hl' => absurd hl' List.not_mem_nil⟩
    · refine ⟨pre, l₀, post ++ [l], by simp, hwrite, hkey, hsealed, fun l' hl' => ?_⟩
      rcases List.mem_append.mp hl' with hl' | hl'
      · exact hpost l' hl'
      · obtain rfl := List.mem_singleton.mp hl'
        exact hother

/-- What the writes come to is what the last of them wrote. -/
lemma vault_eq_some_iff : vault ls k = some (key, value) ↔ ∃ q, LastWrote ls q k key value := by
  induction ls using List.reverseRecOn with
  | nil =>
      refine iff_of_false (by simp [vault]) ?_
      rintro ⟨q, pre, l, post, hls, -⟩
      simp at hls
  | append_singleton ls l ih =>
      have hvault : vault (ls ++ [l]) = l.record (vault ls) := by simp [vault]
      rw [hvault, Label.record]
      simp only [lastWrote_concat]
      cases hwrite : l.write? with
      | none => simpa using ih
      | some w =>
          obtain ⟨q, key'⟩ := w
          simp only [Function.update_apply, Option.some.injEq, forall_eq']
          split_ifs with hk
          · subst hk
            constructor
            · intro hsealed
              have hkey : key' = key := by
                cases hmutation : q.mutation with
                | upsert v notes =>
                    rw [hmutation] at hsealed
                    exact (Prod.mk.inj (Option.some.inj hsealed)).1
                | delete => simp [hmutation, Mutation.sealed] at hsealed
              subst hkey
              exact ⟨q, Or.inl ⟨rfl, rfl, hsealed⟩⟩
            · rintro ⟨q', ⟨heq, -, hsealed⟩ | ⟨hne, -⟩⟩
              · obtain ⟨rfl, rfl⟩ := Prod.mk.inj heq
                exact hsealed
              · exact absurd rfl hne
          · rw [ih]
            refine exists_congr fun q' => ?_
            constructor
            · exact fun h => Or.inr ⟨Ne.symm hk, h⟩
            · rintro (⟨heq, hkey, -⟩ | ⟨-, h⟩)
              · obtain ⟨rfl, rfl⟩ := Prod.mk.inj heq
                exact absurd hkey.symm hk
              · exact h

/-- **Where a credential of a session comes from**: in any state that the processes and their
clients reach, whoever submits or retries a session, its executor is handed a value under a name if
and only if the body of the request gives it, or else the last write under that name for the actor
was that value, encrypted with the key of the relay, of one of the names that are allowed, by the
actor themself as a submitter or by an administrator. -/
theorem handed_iff {Policy : Type} (hrun : (system C).run {} ls = some s) (R : Relay)
    (hkey : p.key = some key)
    (hstore : R.cfg.hasCredentialsStore = true ∧ R.store = buildFernet C p)
    (hfp : ∀ l ∈ ls, ∀ w, l.write? = some w → C.fingerprint w.2 = C.fingerprint key → w.2 = key)
    (w : World) (hrows : w.rows = .ok (s.table.rows.map StoredRow.toCredentialRow))
    (call : Attribution.Request Policy) (f : FactorySignature) :
    ∀ x ∈ (call.run R w).handed f, ∀ name value,
      x.lookup name = some value ↔
        call.body.lookup name = some value ∨
          call.body.lookup name = none ∧ call.actor ≠ "" ∧
            ∃ q, LastWrote ls q (call.actor, name) key value ∧ name ∈ ALLOWED_ENV_NAMES ∧
              Authorised q call.actor := by
  intro x hx name value
  have hstored : (storedCredentials R (call.secrets w)).lookup name
      = if call.actor = "" then none else opened key (vault ls (call.actor, name)) := by
    rw [storedCredentials, if_pos hstore.1, ← getForUser_eq, hstore.2, hrows]
    split_ifs with hactor
    · rw [getForUser, hactor]
      cases (buildFernet C p).fernet <;> rfl
    · have hvault : ∀ k key' v, vault ls k = some (key', v) →
          C.fingerprint key' = C.fingerprint key → key' = key := by
        intro k key' v hv hsame
        obtain ⟨q, pre, l, post, rfl, hwrite, -⟩ := vault_eq_some_iff.mp hv
        exact hfp l (by simp) _ hwrite hsame
      obtain ⟨out, hout, hlookup⟩ := lookup_getForUser hkey (holds_run hrun) hvault hactor
      rw [hout]
      exact hlookup name
  have hlookup : x.lookup name
      = (call.body.lookup name).or ((storedCredentials R (call.secrets w)).lookup name) := by
    rw [handed_eq hx, attributed]
    split_ifs with hnil
    · rw [hnil, List.lookup_nil, Option.or_none]
    · exact lookup_mergeCredentials
  have hopened : opened key (vault ls (call.actor, name)) = some value ↔
      ∃ q, LastWrote ls q (call.actor, name) key value := by
    rw [← vault_eq_some_iff, opened]
    cases vault ls (call.actor, name) with
    | none => simp
    | some e =>
        obtain ⟨key', v⟩ := e
        by_cases hsame : key' = key <;> simp [Option.filter, hsame]
  rw [hlookup, hstored]
  cases call.body.lookup name with
  | some v => simp
  | none =>
      rw [Option.none_or]
      split_ifs with hactor
      · simp [hactor]
      · rw [hopened]
        simp only [ne_eq, hactor, not_false_eq_true, true_and, false_or]
        refine exists_congr fun q => ⟨fun h => ⟨h, ?_⟩, And.left⟩
        obtain ⟨pre, l, post, -, hwrite, hq, -⟩ := h
        have hallowed := authorised_of_write? hwrite
        rw [show q.envName = name from congrArg Prod.snd hq,
          show q.target = call.actor from congrArg Prod.fst hq] at hallowed
        exact hallowed

end Handed

/-- **No value is lost silently**: in any state that is reached, a row is either among those that
`list_bricked` shows, or its user gets its value, the one that was last written to it. -/
theorem stored_or_bricked {C : Cipher} {p : Process} {s : State} {ls : List Label} {key : String}
    (hrun : (system C).run {} ls = some s) (hkey : p.key = some key)
    (hfp : ∀ l ∈ ls, ∀ w, l.write? = some w → C.fingerprint w.2 = C.fingerprint key → w.2 = key)
    {r : StoredRow} (hr : r ∈ s.table.rows) (hlabel : r.userLabel ≠ "") :
    ∃ out, getForUser (buildFernet C p) (.ok (s.table.rows.map StoredRow.toCredentialRow))
        r.userLabel = .ok out ∧
      ((out.lookup r.secret.envName).isSome ↔
        r.metadata ∉ listBricked s.table (buildFernet C p).keyFingerprint) ∧
      ∀ value, out.lookup r.secret.envName = some value ↔
        ∃ q, LastWrote ls q r.key key value := by
  have hvault : ∀ k key' v, vault ls k = some (key', v) →
      C.fingerprint key' = C.fingerprint key → key' = key := by
    intro k key' v hv hsame
    obtain ⟨q, pre, l, post, rfl, hwrite, -⟩ := vault_eq_some_iff.mp hv
    exact hfp l (by simp) _ hwrite hsame
  obtain ⟨out, hout, hlookup⟩ := lookup_getForUser hkey (holds_run hrun) hvault hlabel
  have hrow := holds_run hrun r.key
  rw [UniqueRows.get?_eq_some.mpr ⟨hr, rfl⟩] at hrow
  refine ⟨out, hout, ?_, fun value => ?_⟩
  · have hbricked : r.metadata ∈ listBricked s.table (buildFernet C p).keyFingerprint ↔
        C.fingerprint key ≠ r.secret.keyFingerprint := by
      have hprint : (buildFernet C p).keyFingerprint = some (C.fingerprint key) := by
        rw [buildFernet, hkey]
        rfl
      rw [listBricked, List.mem_insertionSort, List.mem_filter, hprint]
      simp only [decide_eq_true_eq, ne_eq, Option.some.injEq]
      exact and_iff_right (List.mem_map_of_mem hr)
    rw [hlookup, hbricked, not_not]
    change (opened key (vault ls r.key)).isSome ↔ _
    cases hcontents : vault ls r.key with
    | none =>
        rw [hcontents] at hrow
        exact hrow.elim
    | some e =>
        obtain ⟨key', v⟩ := e
        rw [hcontents] at hrow
        rw [hrow.1]
        constructor
        · intro hsome
          by_cases hsame : key' = key
          · rw [hsame]
          · simp [opened, Option.filter, hsame] at hsome
        · intro hsame
          simp [opened, Option.filter, hvault _ _ _ hcontents hsame.symm]
  · rw [hlookup, ← vault_eq_some_iff]
    change opened key (vault ls r.key) = _ ↔ _
    cases vault ls r.key with
    | none => simp [opened]
    | some e =>
        obtain ⟨key', v⟩ := e
        by_cases hsame : key' = key <;> simp [opened, Option.filter, hsame]

/-! ### A rotation of the key -/

/-- A cipher that writes the key in front of the value. -/
def plainCipher : Cipher where
  encrypt := fun key _ value => String.ofList (key.toList ++ ':' :: value.toList)
  decrypt := fun key token =>
    if (key.toList ++ [':']).isPrefixOf token.toList then
      .text (String.ofList (token.toList.drop (key.toList.length + 1)))
    else .invalidToken
  fingerprint := id
  decrypt_encrypt := by
    intro key _ value
    rw [String.toList_ofList, if_pos]
    · rw [← List.drop_drop, List.drop_left, List.drop_one, List.tail_cons, String.ofList_toList]
    · rw [List.isPrefixOf_iff_prefix]
      exact ⟨value.toList, by simp⟩

/-- Alice, a submitter, and Carol, an administrator. -/
def alice : Caller := ⟨some "alice", some "submitter", "db", ∅⟩

def carol : Caller := ⟨some "carol", some "admin", "db", ∅⟩

/-- Alice writes a key; after a rotation of the encryption key Carol writes another one for her. -/
def rotation : List Label :=
  [.mutate ⟨some "K1", true⟩ ⟨alice, none, "ANTHROPIC_API_KEY", .upsert "old" none⟩ 1 0 1 false,
    .audited 0 false,
    .mutate ⟨some "K1", true⟩ ⟨alice, none, "AWS_REGION", .upsert "eu" none⟩ 2 0 2 false,
    .mutate ⟨some "K2", false⟩ ⟨carol, some "alice", "ANTHROPIC_API_KEY", .upsert "new" none⟩ 3 0 3
      false]

/-- The state after it. -/
def rotated : State := ((system plainCipher).run {} rotation).getD {}

lemma run_rotation : (system plainCipher).run {} rotation = some rotated := rfl

/-- The relay with the new key. -/
def rotatedRelay : Relay := { strictRelay with store := buildFernet plainCipher ⟨some "K2", false⟩ }

/-- The world of the next submission. -/
def rotatedWorld : World where
  rows := .ok (rotated.table.rows.map StoredRow.toCredentialRow)
  sid := "s1"

/-- Alice retries a session of Bob's. -/
def aliceRetries : Attribution.Request Unit :=
  .retry (.ok (some ⟨taggedSubmission.spec.toJsonSafe, some "bob", none⟩)) "s0" (some "alice")
    (some "submitter")

/-- No two keys of the run have the same fingerprint. -/
lemma fingerprint_rotation (key : String) :
    ∀ l ∈ rotation, ∀ w, l.write? = some w →
      plainCipher.fingerprint w.2 = plainCipher.fingerprint key → w.2 = key :=
  fun _ _ _ _ h => h

/-- Alice's session gets the value that Carol has written, and not her region, which nobody can
decrypt any more. -/
theorem handed_after_rotation :
    (aliceRetries.run rotatedRelay rotatedWorld).handed .runtimeCtx
        = [[("ANTHROPIC_API_KEY", "new")], [("ANTHROPIC_API_KEY", "new")]] ∧
      ∃ q, LastWrote rotation q ("alice", "ANTHROPIC_API_KEY") "K2" "new" ∧
        "ANTHROPIC_API_KEY" ∈ ALLOWED_ENV_NAMES ∧ Authorised q "alice" := by
  have hhanded : (aliceRetries.run rotatedRelay rotatedWorld).handed .runtimeCtx
      = [[("ANTHROPIC_API_KEY", "new")], [("ANTHROPIC_API_KEY", "new")]] := by decide +kernel
  refine ⟨hhanded, ?_⟩
  have horigin := (handed_iff run_rotation rotatedRelay rfl ⟨rfl, rfl⟩
    (fingerprint_rotation "K2") rotatedWorld rfl aliceRetries .runtimeCtx
    [("ANTHROPIC_API_KEY", "new")] (by rw [hhanded]; simp) "ANTHROPIC_API_KEY" "new").mp rfl
  exact (horigin.resolve_left (by decide)).2.2

/-- Her region is still encrypted with the old key. -/
def region : StoredRow where
  userLabel := "alice"
  secret := ⟨"AWS_REGION", "K1:eu", "K1"⟩
  id := 2
  createdAt := 2
  updatedAt := 2
  createdByLabel := "alice"
  notes := none

lemma region_mem : region ∈ rotated.table.rows :=
  List.mem_of_mem_getLast? (show rotated.table.rows.getLast? = some region from rfl)

theorem region_bricked :
    (∃ out, getForUser (buildFernet plainCipher ⟨some "K2", false⟩)
        (.ok (rotated.table.rows.map StoredRow.toCredentialRow)) "alice" = .ok out ∧
      ((out.lookup "AWS_REGION").isSome ↔ region.metadata ∉ listBricked rotated.table (some "K2")) ∧
      ∀ value, out.lookup "AWS_REGION" = some value ↔
        ∃ q, LastWrote rotation q ("alice", "AWS_REGION") "K2" value) ∧
      region.metadata ∈ listBricked rotated.table (some "K2") :=
  ⟨stored_or_bricked run_rotation rfl (fingerprint_rotation "K2") region_mem
    (by decide), by decide +kernel⟩

end UserCredentials

end GgRelay
