import GgRelay.Session.Frames.Payload
import GgRelay.Lib.IsoTime
import GgRelay.Lib.Fields
import GgRelay.Lib.Like
import GgRelay.Lib.Quote
import Mathlib.Data.List.Sort
import Mathlib.Data.String.Basic

/-!
The cursors of the three listings of `store/repository.py` and the filter hashes they carry.

* `Host` is what surrounds the store: the database with its driver, and the parts of the standard
  library that are tables (SHA-1, `str.isprintable`, `str.lower`);
* a `Cursor` is what base64 and `json.loads` make of its text, so that the text itself is left out;
* `filterHash`, `filterHashSearch` and `auditFilterHash` hash the text of a filter;
* `decode_encode`: a cursor is decoded to the row it was made from, under the hash it was made with.
-/

namespace GgRelay.Listing

open Frames (Obj PyError get asStr)

/-- `engine.dialect.name`. -/
inductive Dialect where
  | sqlite
  | postgresql
  deriving DecidableEq, Repr

/-- The database and the parts of the standard library that the listings use. `σ` are the values of
a timestamp column in the order of the database, `κ` those of its collation. -/
structure Host (σ κ : Type) where
  dialect : Dialect
  /-- what the driver makes of a value of a timestamp column -/
  load : σ → DateTime
  /-- what the driver makes of a time that is passed to a query -/
  bind : DateTime → σ
  bind_load : ∀ t, bind (load t) = t
  /-- how the database sorts strings; it tells different strings apart -/
  collate : String → κ
  collate_injective : Function.Injective collate
  /-- `hashlib.sha1(text.encode()).hexdigest()[:12]` -/
  digest : String → String
  /-- `str.isprintable()`, beyond ASCII -/
  printable : Char → Bool
  /-- `s.lower()` -/
  lower : String → String
  /-- no capital letter of ASCII is left -/
  lower_lower : ∀ s, ∀ c ∈ (lower s).toList, c.toLower = c
  /-- `str(v)` -/
  str : Json → String
  str_str : ∀ s, str (.str s) = s
  /-- `int(v)` -/
  int : Json → Except PyError ℤ
  int_int : ∀ n, int (.scalar (.int n)) = .ok n

/-- A second of the first minute of a year. -/
def firstMinute (i : Fin 60) : DateTime :=
  ⟨⟨2024, 1, 1, 0, 0, i, 0, some ⟨false, 0, 0, 0, 0⟩⟩, by
    have h : ∀ i : Fin 60, DateTime.Fields.Valid
        ⟨2024, 1, 1, 0, 0, i, 0, some ⟨false, 0, 0, 0, 0⟩⟩ := by decide
    exact h i⟩

/-- A host whose clock counts the seconds of one minute, and that hashes nothing. -/
def Host.plain (dialect : Dialect) : Host (Fin 60) String where
  dialect := dialect
  load := firstMinute
  bind t := ⟨t.1.second % 60, Nat.mod_lt _ (by decide)⟩
  bind_load i := Fin.ext (Nat.mod_eq_of_lt i.2)
  collate := id
  collate_injective := Function.injective_id
  digest := id
  printable _ := true
  lower s := String.ofList (s.toList.map Char.toLower)
  lower_lower s c hc := by
    rw [String.toList_ofList, List.mem_map] at hc
    obtain ⟨d, -, rfl⟩ := hc
    exact toLower_toLower d
  str
    | .str s => s
    | _ => ""
  str_str _ := rfl
  int
    | .scalar (.int n) => .ok n
    | _ => .error .typeError
  int_int _ := rfl

/-- What base64 and `json.loads` make of the text of a cursor; none when one of them raises. -/
abbrev Cursor := Option Json

/-- Why a cursor is malformed. -/
inductive Malformed where
  /-- base64 or JSON -/
  | text
  /-- "missing ts/id fields" -/
  | fields
  /-- "ts not iso8601" -/
  | ts (value : Json)
  /-- "id not integer" -/
  | id (value : Json)

/-- What a listing raises; the label is `""`, `"audit "` or `"search "` in its message. -/
inductive ListingError where
  /-- `CursorInvalidError` -/
  | cursorInvalid (label : String) (why : Malformed)
  /-- `CursorFilterMismatchError` -/
  | cursorFilterMismatch (label : String) (cursor : Json) (currentFilter : String)
  | python (e : PyError)

/-! ### Encoding and decoding -/

section Codec

variable {σ κ : Type} (H : Host σ κ)

/-- The payload of a cursor. -/
def encodePayload (ts : DateTime) (id : Json) (fh : String) : Cursor :=
  some (.mapping [("ts", .str ts.isoformat), ("id", id), ("fh", .str fh)])

/-- `_encode_cursor`. -/
def encodeCursor (submittedAt : DateTime) (id fh : String) : Cursor :=
  encodePayload submittedAt (.str id) fh

/-- `_encode_audit_cursor`. -/
def encodeAuditCursor (ts : DateTime) (id : ℤ) (fh : String) : Cursor :=
  encodePayload ts (.scalar (.int id)) fh

/-- `_encode_search_cursor`. -/
def encodeSearchCursor (submittedAt : DateTime) (id fh : String) : Cursor :=
  encodePayload submittedAt (.str id) fh

/-- The three decoders up to the id. -/
def decodePayload (label : String) (cursor : Cursor) (expected : String) :
    Except ListingError (DateTime × Json) :=
  match cursor with
  | none => .error (.cursorInvalid label .text)
  | some (.mapping obj) =>
      if (obj.lookup "ts").isNone ∨ (obj.lookup "id").isNone then
        .error (.cursorInvalid label .fields)
      else if asStr (get obj "fh") ≠ some expected then
        .error (.cursorFilterMismatch label (get obj "fh") expected)
      else
        match (asStr (get obj "ts")).bind fromisoformat with
        | none => .error (.cursorInvalid label (.ts (get obj "ts")))
        | some ts => .ok (ts, get obj "id")
  | some _ => .error (.cursorInvalid label .fields)

/-- `_decode_cursor`. -/
def decodeCursor (cursor : Cursor) (expected : String) : Except ListingError (DateTime × String) :=
  (decodePayload "" cursor expected).map fun p => (p.1, H.str p.2)

/-- `_decode_audit_cursor`; an `OverflowError` of `int` is not caught. -/
def decodeAuditCursor (cursor : Cursor) (expected : String) :
    Except ListingError (DateTime × ℤ) :=
  (decodePayload "audit " cursor expected).bind fun p =>
    match H.int p.2 with
    | .ok id => .ok (p.1, id)
    | .error .overflowError => .error (.python .overflowError)
    | .error _ => .error (.cursorInvalid "audit " (.id p.2))

/-- `_decode_search_cursor`. -/
def decodeSearchCursor (cursor : Cursor) (expected : String) :
    Except ListingError (DateTime × String) :=
  (decodePayload "search " cursor expected).map fun p => (p.1, H.str p.2)

variable {H}

/-- **What becomes of a cursor**: it is read back under the hash it was made with, and refused under
any other. -/
theorem decode_encode (label : String) (ts : DateTime) (id : Json) (fh expected : String) :
    decodePayload label (encodePayload ts id fh) expected
      = if fh = expected then .ok (ts, id)
        else .error (.cursorFilterMismatch label (.str fh) expected) := by
  by_cases h : fh = expected
  · subst h
    simp [decodePayload, encodePayload, Frames.get, Frames.getD, asStr, List.lookup_cons,
      fromisoformat_isoformat]
  · simp [decodePayload, encodePayload, Frames.get, Frames.getD, asStr, List.lookup_cons, h]

end Codec

/-! ### The texts that are hashed -/

/-- `v or '*'`. -/
def orStar (v : Option String) : String :=
  match v with
  | none => "*"
  | some s => if s = "" then "*" else s

section Filters

variable {σ κ : Type} (H : Host σ κ)

/-- The text of the filter of `list_sessions`. -/
def filterText (status tag : Option String) : String := joinFields ["|"] [orStar status, orStar tag]

/-- `_filter_hash`. -/
def filterHash (status tag : Option String) : String := H.digest (filterText status tag)

/-- The filter of `list_audit`. -/
structure AuditFilter where
  actor : Option String := none
  action : Option String := none
  targetType : Option String := none
  targetId : Option String := none
  deriving DecidableEq

/-- The text of an audit filter; the parts are sorted by their keys. -/
def auditFilterText (f : AuditFilter) : String :=
  "action=" ++ joinFields ["|actor=", "|target_id=", "|target_type="]
    [orStar f.action, orStar f.actor, orStar f.targetId, orStar f.targetType]

/-- `_audit_filter_hash`. -/
def auditFilterHash (f : AuditFilter) : String := H.digest (auditFilterText f)

/-- The filter of `search_sessions`. -/
structure SearchFilter where
  q : Option String := none
  owner : Option String := none
  tags : Option (List String) := none
  status : Option (List String) := none
  afterTs : Option DateTime := none
  beforeTs : Option DateTime := none

/-- `sorted(vs) if vs else None`, printed. -/
def listText (vs : Option (List String)) : String :=
  match vs with
  | none => "*"
  | some vs =>
      if vs = [] then "*"
      else String.ofList (reprList H.printable (vs.insertionSort fun s t => s ≤ t))

/-- `ts.isoformat() if ts else None`, printed. -/
def timeText (ts : Option DateTime) : String := ts.elim "*" DateTime.isoformat

/-- The text of a search filter; the parts are sorted by their keys. -/
def searchFilterText (f : SearchFilter) : String :=
  "after_ts=" ++ joinFields ["|before_ts=", "|owner=", "|q=", "|status=", "|tags="]
    [timeText f.afterTs, timeText f.beforeTs, f.owner.getD "*", f.q.getD "*",
      listText H f.status, listText H f.tags]

/-- `_filter_hash_search`. -/
def filterHashSearch (f : SearchFilter) : String := H.digest (searchFilterText H f)

end Filters

end GgRelay.Listing
