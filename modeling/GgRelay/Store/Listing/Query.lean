import GgRelay.Store.Listing.Cursor
import GgRelay.Lib.JsonText
import GgRelay.Lib.Keyset

/-!
The three listings of `store/repository.py`: `list_sessions`, `search_sessions`, `list_audit`.

* `sqlLike` is `LIKE` of the two databases;
* `listing` is what the three functions share, from the `WHERE` clause to the next cursor;
* `listSessions`, `searchSessions` and `listAudit` are the functions on the rows of the table;
* `listSessions_page`, `searchSessions_page` and `listAudit_page`: with its own cursors each of them
  is a page of a keyset listing.
-/

namespace GgRelay.Listing

/-- A row of the `sessions` table, as far as the listings read it. -/
structure StoredSession (σ : Type) where
  id : String
  submittedAt : σ
  status : String
  owner : Option String
  tags : List String
  specJson : Json

/-- A row of the `audit_log` table, as far as the listing reads it. -/
structure AuditRow (σ : Type) where
  id : ℤ
  ts : σ
  actor : String
  action : String
  targetType : Option String
  targetId : Option String

/-! ### The shape of a listing -/

section Listing

variable {ρ α : Type}

/-- A listing: the rows that match and are behind the cursor, newest first, one more than the page,
and a cursor to the last row of the page if there are more. -/
def listing (newer : ρ → ρ → Prop) [DecidableRel newer]
    (decode : Cursor → Except ListingError α) (behind : α → ρ → Bool) (encode : ρ → Cursor)
    (sel : ρ → Bool) (limit : ℕ) (after : Option Cursor) (rows : List ρ) :
    Except ListingError (List ρ × Option Cursor) := do
  let anchor ← after.mapM decode
  let fetched := ((rows.filter fun r => sel r && anchor.all fun a => behind a r).insertionSort
    newer).take (limit + 1)
  let page := fetched.take limit
  return (page, if limit < fetched.length then page.getLast?.map encode else none)

/-- **A listing that reads its own cursors as it wrote them is a keyset listing.** -/
theorem listing_page {β : Type} [LinearOrder β] {key : ρ → β}
    {newer : ρ → ρ → Prop} [DecidableRel newer] {decode : Cursor → Except ListingError α}
    {behind : α → ρ → Bool} {encode : ρ → Cursor} {sel : ρ → Bool} {limit : ℕ}
    (hnewer : ∀ x y, newer x y ↔ key y ≤ key x)
    (hcursor : ∀ z, ∃ a, decode (encode z) = .ok a ∧ ∀ x, behind a x = decide (key x < key z))
    (rows : List ρ) (bound : Option ρ) :
    listing newer decode behind encode sel limit (bound.map encode) rows
      = .ok ((Keyset.page key sel limit bound rows).1,
          (Keyset.page key sel limit bound rows).2.map encode) := by
  have hsort : ∀ l : List ρ, l.insertionSort newer = Keyset.descending key l := by
    intro l
    have heq : newer = fun x y => key y ≤ key x := funext fun x => funext fun y =>
      propext (hnewer x y)
    subst heq
    rw [Keyset.descending]
    congr
  have hnext : ∀ (p : Prop) [Decidable p] (l : List ρ), (if p then l.getLast?.map encode else none)
      = (if p then l.getLast? else none).map encode := by
    intro p _ l
    split_ifs <;> rfl
  cases bound with
  | none =>
      simp only [listing, Keyset.page, Keyset.below, hsort, hnext, Option.map_none,
        Option.mapM_none, Option.all_none, pure_bind]
      rfl
  | some z =>
      obtain ⟨a, ha, hbehind⟩ := hcursor z
      simp only [listing, Keyset.page, Keyset.below, hsort, hnext, Option.map_some,
        Option.mapM_some, ha, Option.all_some, ← hbehind]
      rfl

end Listing

section Host

variable {σ κ : Type} [LinearOrder σ] [LinearOrder κ] (H : Host σ κ)

/-! ### The `WHERE` clauses -/

/-- `text LIKE pattern`. -/
def sqlLike (text pattern : List Char) : Bool :=
  match H.dialect with
  | .sqlite => likeTokensMatch (fun d c => d.toLower = c.toLower) (likeTokens false pattern) text
  | .postgresql => likeTokensMatch (fun d c => d = c) (likeTokens true pattern) text

/-- `lower(text)`, for a text in ASCII. -/
def sqlLower (text : List Char) : List Char := text.map Char.toLower

/-- `_tag_filter_clause`: the tag is a member of the array, on either database. -/
def tagFilterClause (tag : String) (r : StoredSession σ) : Bool := tag ∈ r.tags

/-- The clauses of `list_sessions`. -/
def listWhere (status tag : Option String) (r : StoredSession σ) : Bool :=
  (status.all fun s => r.status = s) && tag.all fun t => tagFilterClause t r

/-- The clause for `q`, for a `q` that is not empty. -/
def qClause (q : String) (r : StoredSession σ) : Bool :=
  sqlLike H (sqlLower r.specJson.dumps) ('%' :: (H.lower q).toList ++ ['%'])

/-- The text of the tags column. -/
def tagsText (tags : List String) : List Char := (Json.list (tags.map .str)).dumps

/-- The clause for one of the tags. -/
def tagLike (t : String) (r : StoredSession σ) : Bool :=
  sqlLike H (tagsText r.tags) ('%' :: '"' :: t.toList ++ ['"', '%'])

/-- A list that is given and not empty. -/
def given (vs : Option (List String)) : Option (List String) := vs.filter fun vs => !vs.isEmpty

/-- The clauses of `search_sessions`. -/
def searchWhere (f : SearchFilter) (r : StoredSession σ) : Bool :=
  ((f.q.filter (· ≠ "")).all fun q => qClause H q r) &&
  (f.owner.all fun o => r.owner = some o) &&
  ((given f.status).all fun ss => r.status ∈ ss) &&
  (f.afterTs.all fun t => H.bind t ≤ r.submittedAt) &&
  (f.beforeTs.all fun t => r.submittedAt ≤ H.bind t) &&
  (given f.tags).all fun ts => ts.any fun t => tagLike H t r

/-- The filter that `list_audit` makes of its arguments: the session stands for a target. -/
def AuditFilter.resolve (f : AuditFilter) (sessionId : Option String) : AuditFilter :=
  match sessionId with
  | none => f
  | some sid =>
      { f with targetType := f.targetType <|> some "session", targetId := f.targetId <|> some sid }

/-- The clauses of `list_audit`. -/
def auditWhere (f : AuditFilter) (r : AuditRow σ) : Bool :=
  (f.actor.all fun a => r.actor = a) && (f.action.all fun a => r.action = a) &&
  (f.targetType.all fun t => r.targetType = some t) &&
  f.targetId.all fun t => r.targetId = some t

/-! ### The listings -/

/-- `submitted_at`, then `id`. -/
def sessionKey (r : StoredSession σ) : σ ×ₗ κ := toLex (r.submittedAt, H.collate r.id)

/-- `ts`, then `id`. -/
def auditKey (r : AuditRow σ) : σ ×ₗ ℤ := toLex (r.ts, r.id)

/-- `ORDER BY submitted_at DESC, id DESC`. -/
def sessionNewer (r s : StoredSession σ) : Prop := sessionKey H s ≤ sessionKey H r

instance : DecidableRel (sessionNewer H) := fun r s =>
  inferInstanceAs (Decidable (sessionKey H s ≤ sessionKey H r))

/-- `ORDER BY ts DESC, id DESC`. -/
def auditNewer (r s : AuditRow σ) : Prop := auditKey s ≤ auditKey r

instance : DecidableRel (auditNewer (σ := σ)) := fun r s =>
  inferInstanceAs (Decidable (auditKey s ≤ auditKey r))

/-- The clause for the cursor of a session listing. -/
def sessionBehind (a : DateTime × String) (r : StoredSession σ) : Bool :=
  r.submittedAt < H.bind a.1 ∨ r.submittedAt = H.bind a.1 ∧ H.collate r.id < H.collate a.2

/-- The clause for the cursor of the audit listing. -/
def auditBehind (a : DateTime × ℤ) (r : AuditRow σ) : Bool :=
  r.ts < H.bind a.1 ∨ r.ts = H.bind a.1 ∧ r.id < a.2

/-- `list_sessions`. -/
def listSessions (status tag : Option String) (limit : ℕ) (rows : List (StoredSession σ))
    (after : Option Cursor) : Except ListingError (List (StoredSession σ) × Option Cursor) :=
  let fh := filterHash H status tag
  listing (sessionNewer H) (fun c => decodeCursor H c fh) (sessionBehind H)
    (fun r => encodeCursor (H.load r.submittedAt) r.id fh) (listWhere status tag) limit after rows

/-- `search_sessions`. -/
def searchSessions (f : SearchFilter) (limit : ℕ) (rows : List (StoredSession σ))
    (after : Option Cursor) : Except ListingError (List (StoredSession σ) × Option Cursor) :=
  let fh := filterHashSearch H f
  listing (sessionNewer H) (fun c => decodeSearchCursor H c fh) (sessionBehind H)
    (fun r => encodeSearchCursor (H.load r.submittedAt) r.id fh) (searchWhere H f) limit after rows

/-- `list_audit`. -/
def listAudit (sessionId : Option String) (f : AuditFilter) (limit : ℕ) (rows : List (AuditRow σ))
    (after : Option Cursor) : Except ListingError (List (AuditRow σ) × Option Cursor) :=
  let f := f.resolve sessionId
  let fh := auditFilterHash H f
  listing auditNewer (fun c => decodeAuditCursor H c fh) (auditBehind H)
    (fun r => encodeAuditCursor (H.load r.ts) r.id fh) (auditWhere f) limit after rows

/-! ### Their pages -/

variable {H}

lemma sessionBehind_eq (z r : StoredSession σ) :
    sessionBehind H (H.load z.submittedAt, z.id) r = decide (sessionKey H r < sessionKey H z) := by
  have hlt : sessionKey H r < sessionKey H z ↔ r.submittedAt < z.submittedAt ∨
      r.submittedAt = z.submittedAt ∧ H.collate r.id < H.collate z.id := Prod.Lex.toLex_lt_toLex
  rw [sessionBehind, H.bind_load]
  exact decide_eq_decide.mpr hlt.symm

omit [LinearOrder κ] in
lemma auditBehind_eq (z r : AuditRow σ) :
    auditBehind H (H.load z.ts, z.id) r = decide (auditKey r < auditKey z) := by
  have hlt : auditKey r < auditKey z ↔ r.ts < z.ts ∨ r.ts = z.ts ∧ r.id < z.id :=
    Prod.Lex.toLex_lt_toLex
  rw [auditBehind, H.bind_load]
  exact decide_eq_decide.mpr hlt.symm

/-- The cursor of a row, as `list_sessions` makes it. -/
def listCursor (H : Host σ κ) (status tag : Option String) (r : StoredSession σ) : Cursor :=
  encodeCursor (H.load r.submittedAt) r.id (filterHash H status tag)

/-- The cursor of a row, as `search_sessions` makes it. -/
def searchCursor (H : Host σ κ) (f : SearchFilter) (r : StoredSession σ) : Cursor :=
  encodeSearchCursor (H.load r.submittedAt) r.id (filterHashSearch H f)

/-- The cursor of a row, as `list_audit` makes it. -/
def auditCursor (H : Host σ κ) (f : AuditFilter) (r : AuditRow σ) : Cursor :=
  encodeAuditCursor (H.load r.ts) r.id (auditFilterHash H f)

/-- **`list_sessions` with its own cursors.** -/
theorem listSessions_page (status tag : Option String) (limit : ℕ) (rows : List (StoredSession σ))
    (bound : Option (StoredSession σ)) :
    listSessions H status tag limit rows (bound.map (listCursor H status tag))
      = .ok ((Keyset.page (sessionKey H) (listWhere status tag) limit bound rows).1,
          (Keyset.page (sessionKey H) (listWhere status tag) limit bound rows).2.map
            (listCursor H status tag)) := by
  refine listing_page (fun _ _ => Iff.rfl) (fun z => ?_) rows bound
  refine ⟨(H.load z.submittedAt, z.id), ?_, fun r => sessionBehind_eq z r⟩
  rw [decodeCursor, listCursor, encodeCursor, decode_encode, if_pos rfl, Except.map, H.str_str]

/-- **`search_sessions` with its own cursors.** -/
theorem searchSessions_page (f : SearchFilter) (limit : ℕ) (rows : List (StoredSession σ))
    (bound : Option (StoredSession σ)) :
    searchSessions H f limit rows (bound.map (searchCursor H f))
      = .ok ((Keyset.page (sessionKey H) (searchWhere H f) limit bound rows).1,
          (Keyset.page (sessionKey H) (searchWhere H f) limit bound rows).2.map
            (searchCursor H f)) := by
  refine listing_page (fun _ _ => Iff.rfl) (fun z => ?_) rows bound
  refine ⟨(H.load z.submittedAt, z.id), ?_, fun r => sessionBehind_eq z r⟩
  rw [decodeSearchCursor, searchCursor, encodeSearchCursor, decode_encode, if_pos rfl, Except.map, H.str_str]

omit [LinearOrder κ] in
/-- **`list_audit` with its own cursors.** -/
theorem listAudit_page (sessionId : Option String) (f : AuditFilter) (limit : ℕ)
    (rows : List (AuditRow σ)) (bound : Option (AuditRow σ)) :
    listAudit H sessionId f limit rows (bound.map (auditCursor H (f.resolve sessionId)))
      = .ok ((Keyset.page auditKey (auditWhere (f.resolve sessionId)) limit bound rows).1,
          (Keyset.page auditKey (auditWhere (f.resolve sessionId)) limit bound rows).2.map
            (auditCursor H (f.resolve sessionId))) := by
  refine listing_page (fun _ _ => Iff.rfl) (fun z => ?_) rows bound
  refine ⟨(H.load z.ts, z.id), ?_, fun r => auditBehind_eq z r⟩
  rw [decodeAuditCursor, auditCursor, encodeAuditCursor, decode_encode, if_pos rfl]
  simp only [Except.bind, H.int_int]

end Host

end GgRelay.Listing
