import GgRelay.Lib.Dict
import GgRelay.Lib.JsonCanon
import GgRelay.Lib.Pairing
import GgRelay.Lib.System
import GgRelay.Lib.Uuid
import GgRelay.Session.Hitl.Policy

/-!
Which permission request belongs to which tool call (`session/client.py`, `_make_runner_core`).

The SDK asks for a permission by the name and the input of a tool and announces the call by its
`tool_use_id`, in either order.  The runner brings the two together.

* `freeze` is the key of an input, `frozen_eq_iff` says that it is the input up to the order of items;
* `State` has the two queues and the mapping, `canUseTool`, `toolUseBlock` and `toolResultBlock` are
  the stretches of the runner between two `await`s;
* `State.view` is what the queues are for, a `Pairing` of ids under keys;
* `correlated` is the result about runs.
-/

namespace GgRelay.ToolUse

open Frames Json Policy

/-! ### The key of an input -/

/-- The input of a tool call, a dict of JSON values. -/
abbrev Input := { d : Obj // All IsJson (.mapping d) }

/-- The inputs are equal up to the order of keys, at every depth. -/
def Input.same (i j : Input) : Bool := Json.same (.mapping i.1) (.mapping j.1)

/-- `_FrozenInput`. -/
abbrev Frozen := Finset (String × List Char)

/-- `json.dumps(v, sort_keys=True, default=str)`, with so many levels left for the recursion. -/
def dumps (limit : ℕ) (v : Json) : Option (List Char) := dumpsWithin [' '] limit (sortKeys v)

/-- `_freeze`; `none` is an exception. -/
def freeze (limit : ℕ) (d : Obj) : Option Frozen :=
  (d.mapM fun kv => (dumps limit kv.2).map fun text => (kv.1, text)).map List.toFinset

/-- The items of a key. -/
def frozenItems (d : Obj) : List (String × List Char) :=
  d.map fun kv => (kv.1, write [' '] (sortKeys kv.2))

/-- The key of an input that has one. -/
def frozen (d : Obj) : Frozen := (frozenItems d).toFinset

/-- Every integer is short enough to be written. -/
def Short (d : Obj) : Prop := ∀ kv ∈ d, All IntShort kv.2

lemma dumps_eq_some {limit : ℕ} {v : Json} {text : List Char} (h : dumps limit v = some text) :
    text = write [' '] (sortKeys v) ∧ All IntShort v := by
  rw [dumps, dumpsWithin] at h
  split_ifs at h with hlimit
  cases h
  exact ⟨rfl, (all_intShort_sortKeys v).mp hlimit.2⟩

lemma freeze_eq_some {limit : ℕ} {d : Obj} {f : Frozen} (h : freeze limit d = some f) :
    f = frozen d ∧ Short d := by
  have key : ∀ (d : Obj) (l : List (String × List Char)),
      (d.mapM fun kv => (dumps limit kv.2).map fun text => (kv.1, text)) = some l →
      l = frozenItems d ∧ Short d := by
    intro d
    induction d with
    | nil =>
        intro l h
        cases h
        exact ⟨rfl, List.forall_mem_nil _⟩
    | cons kv d ih =>
        intro l h
        rw [List.mapM_cons] at h
        obtain ⟨item, hitem, h⟩ := Option.bind_eq_some_iff.mp h
        obtain ⟨items, hitems, h⟩ := Option.bind_eq_some_iff.mp h
        obtain ⟨text, htext, rfl⟩ := Option.map_eq_some_iff.mp hitem
        obtain ⟨rfl, hshort⟩ := ih items hitems
        obtain ⟨rfl, hshort'⟩ := dumps_eq_some htext
        cases h
        exact ⟨rfl, List.forall_mem_cons.mpr ⟨hshort', hshort⟩⟩
  obtain ⟨l, hl, rfl⟩ := Option.map_eq_some_iff.mp h
  obtain ⟨rfl, hshort⟩ := key d l hl
  exact ⟨rfl, hshort⟩

/-- **The key is the input, up to the order of keys at every depth.** -/
theorem frozen_eq_iff {i j : Input} (hi : Short i.1) (hj : Short j.1) :
    frozen i.1 = frozen j.1 ↔ i.same j = true := by
  obtain ⟨d, hd⟩ := i
  obtain ⟨e, he⟩ := j
  rw [All, allItems_iff] at hd he
  have hnodup : ∀ {c : Obj}, (c.map Prod.fst).Nodup → (frozenItems c).Nodup := by
    intro c hc
    refine List.Nodup.of_map Prod.fst ?_
    rwa [frozenItems, List.map_map]
  have hperm : frozen d = frozen e ↔ (frozenItems d).Perm (frozenItems e) :=
    ⟨List.perm_of_nodup_nodup_toFinset_eq (hnodup hd.1) (hnodup he.1),
      List.toFinset_eq_of_perm _ _⟩
  rw [hperm, frozenItems, frozenItems, perm_items_iff (fun v => write [' '] (sortKeys v)) hd.1 he.1,
    Input.same, same_mapping_iff]
  refine and_congr_right' (forall₂_congr fun kv hkv => exists_congr fun w =>
    and_congr_right fun hlookup => ?_)
  have hmem : (kv.1, w) ∈ e := (lookup_eq_some_iff_mem he.1).mp hlookup
  exact write_sortKeys_eq_iff (by simp) (hd.2 kv hkv) (he.2 _ hmem) (hi kv hkv) (hj _ hmem)

/-! ### The runner -/

/-- What does not change while the session runs. -/
structure Runner where
  policy : ToolPolicy
  host : Host
  cwd : PosixPath
  sessionId : String

/-- An entry of a queue: an id, the name of a tool and a frozen input. -/
structure Entry where
  id : String
  name : String
  input : Frozen

/-- A call, by the id it has in a request or in a block. -/
structure Call where
  id : String
  tool : String
  input : Input

/-- A request and a block that have been brought together. -/
structure Paired where
  reqId : String
  useId : String
  name : String
  input : Frozen

/-- The variables of the runner. -/
structure State where
  pendingPerms : List Entry := []
  pendingUseBlocks : List Entry := []
  useIdToReqId : Dict String String := ∅
  /-- the loop over the messages is left -/
  ended : Bool := false
  /-- history: the requests made, the blocks read, and the pairs -/
  requests : List Call := []
  blocks : List Call := []
  paired : List Paired := []
  /-- history: the tool results sent, each `tool_use_id` with the `req_id` under which it is sent -/
  results : List (String × String) := []

/-- What a callback comes to, before a decision is waited for. -/
inductive Answer where
  | allow
  | deny (message : String)
  /-- a `tool.request` is sent, and the coordinator asked -/
  | asked (reqId : String)
  /-- an exception -/
  | raised
  deriving DecidableEq, Repr

/-- What a decision of the coordinator comes to. -/
def decided (decision : String) : Answer :=
  if decision = "accept" then .allow else .deny "HITL rejected"

/-- The first entry with a name and an input, and the queue without it. -/
def takeMatch (name : String) (fi : Frozen) (pending : List Entry) : Option (String × List Entry) :=
  match pending.find? fun e => e.name = name ∧ e.input = fi with
  | some e => some (e.id, pending.eraseP fun e => e.name = name ∧ e.input = fi)
  | none => none

namespace State

variable (s : State)

/-- `_pair_perm_with_block`. -/
def pairPermWithBlock (name : String) (fi : Frozen) : Option (String × State) :=
  (takeMatch name fi s.pendingUseBlocks).map fun r => (r.1, { s with pendingUseBlocks := r.2 })

/-- `_pair_block_with_perm`. -/
def pairBlockWithPerm (name : String) (fi : Frozen) : Option (String × State) :=
  (takeMatch name fi s.pendingPerms).map fun r => (r.1, { s with pendingPerms := r.2 })

/-- `use_id_to_req_id[use_id] = req_id`. -/
def assign (p : Paired) : State :=
  { s with
    useIdToReqId := s.useIdToReqId.insert p.useId p.reqId
    paired := s.paired ++ [p] }

/-- A request is made. -/
def request (reqId name : String) (input : Input) (fi : Frozen) : State :=
  let s' : State := { s with requests := s.requests ++ [⟨reqId, name, input⟩] }
  match s'.pairPermWithBlock name fi with
  | some (uid, t) => t.assign ⟨reqId, uid, name, fi⟩
  | none => { s' with pendingPerms := s'.pendingPerms ++ [⟨reqId, name, fi⟩] }

/-- A block is read. -/
def block (useId name : String) (input : Input) (fi : Frozen) : State :=
  let s' : State := { s with blocks := s.blocks ++ [⟨useId, name, input⟩] }
  match s'.pairBlockWithPerm name fi with
  | some (rid, t) => t.assign ⟨rid, useId, name, fi⟩
  | none => { s' with pendingUseBlocks := s'.pendingUseBlocks ++ [⟨useId, name, fi⟩] }

end State

/-- The id of a request, from a fresh UUID. -/
def Runner.reqId (r : Runner) (u : Uuid) : String :=
  let short := String.ofList ((hex 32 u.toNat).take 12)
  if r.sessionId ≠ "" then r.sessionId ++ ":" ++ short else "r-" ++ short

/-- `can_use_tool`, up to the wait for the coordinator. -/
def canUseTool (r : Runner) (limit : ℕ) (u : Uuid) (name : String) (input : Input) (s : State) :
    State × Answer :=
  match r.policy.decide r.host name input.1 r.cwd with
  | .accept => (s, .allow)
  | .deny => (s, .deny ("policy denied " ++ name))
  | .needsHitl =>
      match freeze limit input.1 with
      | none => (s, .raised)
      | some fi => (s.request (r.reqId u) name input fi, .asked (r.reqId u))

/-- A `ToolUseBlock`; an exception ends the loop. -/
def toolUseBlock (limit : ℕ) (useId name : String) (input : Input) (s : State) : State :=
  match freeze limit input.1 with
  | none => { s with ended := true }
  | some fi => s.block useId name input fi

/-- A `ToolResultBlock`. -/
def toolResultBlock (useId : String) (s : State) : State :=
  { s with
    useIdToReqId := s.useIdToReqId.erase useId
    results := s.results ++ [(useId, (s.useIdToReqId.lookup useId).getD "")] }

/-- What happens in a session. -/
inductive Event where
  | canUseTool (limit : ℕ) (u : Uuid) (name : String) (input : Input)
  | toolUseBlock (limit : ℕ) (useId name : String) (input : Input)
  | toolResultBlock (useId : String)
  /-- the loop is left for another reason -/
  | leave

/-- The runner of a session. -/
def system (r : Runner) : System State Event where
  init s := s = {}
  step s
    | .canUseTool limit u name input => some (canUseTool r limit u name input s).1
    | .toolUseBlock limit useId name input =>
        if s.ended then none else some (toolUseBlock limit useId name input s)
    | .toolResultBlock useId => if s.ended then none else some (toolResultBlock useId s)
    | .leave => some { s with ended := true }

/-- The ids of the requests are distinct, and those of the blocks. -/
def Distinct (r : Runner) (s : State) : Event → Prop
  | .canUseTool _ u _ _ => r.reqId u ∉ s.requests.map Call.id
  | .toolUseBlock _ useId _ _ => useId ∉ s.blocks.map Call.id
  | .toolResultBlock _ | .leave => True

instance (r : Runner) (s : State) : DecidablePred (Distinct r s)
  | .canUseTool .. | .toolUseBlock .. => inferInstanceAs (Decidable (_ ∉ _))
  | .toolResultBlock _ | .leave => inferInstanceAs (Decidable True)

/-! ### What is to hold -/

/-- The ids of the calls of a tool with an input, in order. -/
def idsFor (tool : String) (input : Input) (calls : List Call) : List String :=
  (calls.filter fun c => c.tool = tool && c.input.same input).map Call.id

/-- A request and a block have been paired. -/
def State.Pairs (s : State) (rid uid : String) : Prop :=
  ∃ p ∈ s.paired, p.reqId = rid ∧ p.useId = uid

/-- **Requests and blocks are correlated.** -/
structure Correlated (s : State) : Prop where
  /-- the `n`-th request for a tool with an input is paired with the `n`-th block, and no others are
  paired -/
  pairs_iff : ∀ rid uid, s.Pairs rid uid ↔ ∃ tool input, ∃ n : ℕ,
    (idsFor tool input s.requests)[n]? = some rid ∧ (idsFor tool input s.blocks)[n]? = some uid
  injective : ∀ rid uid rid' uid', s.Pairs rid uid → s.Pairs rid' uid' → (rid = rid' ↔ uid = uid')
  /-- of a request and a block for the same tool and input one is paired -/
  matched : ∀ c ∈ s.requests, ∀ b ∈ s.blocks, c.tool = b.tool → c.input.same b.input = true →
    (∃ uid, s.Pairs c.id uid) ∨ ∃ rid, s.Pairs rid b.id
  /-- the mapping holds the pairs whose result has not been sent -/
  recorded : ∀ rid uid, s.useIdToReqId.lookup uid = some rid → s.Pairs rid uid
  kept : ∀ rid uid, s.Pairs rid uid →
    s.useIdToReqId.lookup uid = some rid ∨ (uid, rid) ∈ s.results
  reported : ∀ uid rid, (uid, rid) ∈ s.results → rid = "" ∨ s.Pairs rid uid

/-! ### The queues as a pairing -/

def Entry.key (e : Entry) : String × Frozen := (e.name, e.input)

def Call.key (c : Call) : String × Frozen := (c.tool, frozen c.input.1)

/-- The queues with their history. -/
def State.view (s : State) : Pairing (String × Frozen) String String where
  waitingLeft := s.pendingPerms.map fun e => (e.key, e.id)
  waitingRight := s.pendingUseBlocks.map fun e => (e.key, e.id)
  lefts := s.requests.map fun c => (c.key, c.id)
  rights := s.blocks.map fun c => (c.key, c.id)
  pairs := s.paired.map fun p => ((p.name, p.input), p.reqId, p.useId)

variable {r : Runner} {s t : State}

/-- What `takeMatch` finds is the first item of the key. -/
lemma takeMatch_spec (name : String) (fi : Frozen) (pending : List Entry) :
    let items := pending.map fun e => (e.key, e.id)
    match takeMatch name fi pending with
    | some (id, rest) => items.find? (fun x => x.1 = (name, fi)) = some ((name, fi), id) ∧
        items.eraseP (fun x => x.1 = (name, fi)) = rest.map fun e => (e.key, e.id)
    | none => items.find? (fun x => x.1 = (name, fi)) = none := by
  have hkey : ((fun x : (String × Frozen) × String => decide (x.1 = (name, fi))) ∘
      fun e : Entry => (e.key, e.id)) = fun e => decide (e.name = name ∧ e.input = fi) := by
    funext e
    simp [Entry.key]
  intro items
  rw [takeMatch]
  cases hfind : pending.find? fun e => e.name = name ∧ e.input = fi with
  | some e =>
      have he : e.name = name ∧ e.input = fi := by simpa using List.find?_some hfind
      refine ⟨?_, ?_⟩
      · rw [List.find?_map, hkey, hfind]
        simp [Entry.key, he]
      · rw [List.eraseP_map, hkey]
  | none =>
      simp only
      rw [List.find?_map, hkey, hfind, Option.map_none]

lemma view_request {input : Input} {fi : Frozen} (hfi : fi = frozen input.1) (rid name : String)
    (s : State) : (s.request rid name input fi).view = s.view.offerLeft (name, fi) rid := by
  have hmatch := takeMatch_spec name fi s.pendingUseBlocks
  rw [State.request, Pairing.offerLeft, State.pairPermWithBlock]
  cases htake : takeMatch name fi s.pendingUseBlocks with
  | some q =>
      rw [htake] at hmatch
      have hfind : s.view.waitingRight.find? (fun x => x.1 = (name, fi)) = some ((name, fi), q.1) :=
        hmatch.1
      rw [hfind]
      simp [State.view, State.assign, Call.key, hfi, ← hmatch.2]
  | none =>
      rw [htake] at hmatch
      have hfind : s.view.waitingRight.find? (fun x => x.1 = (name, fi)) = none := hmatch
      rw [hfind]
      simp [State.view, Call.key, Entry.key, hfi]

lemma view_block {input : Input} {fi : Frozen} (hfi : fi = frozen input.1) (uid name : String)
    (s : State) : (s.block uid name input fi).view = s.view.offerRight (name, fi) uid := by
  have hmatch := takeMatch_spec name fi s.pendingPerms
  rw [State.block, Pairing.offerRight, State.pairBlockWithPerm]
  cases htake : takeMatch name fi s.pendingPerms with
  | some q =>
      rw [htake] at hmatch
      have hfind : s.view.waitingLeft.find? (fun x => x.1 = (name, fi)) = some ((name, fi), q.1) :=
        hmatch.1
      rw [hfind]
      simp [State.view, State.assign, Call.key, hfi, ← hmatch.2]
  | none =>
      rw [htake] at hmatch
      have hfind : s.view.waitingLeft.find? (fun x => x.1 = (name, fi)) = none := hmatch
      rw [hfind]
      simp [State.view, Call.key, Entry.key, hfi]

/-! ### The mapping -/

/-- The mapping holds the pairs whose result has not been sent. -/
structure Booked (s : State) : Prop where
  recorded : ∀ rid uid, s.useIdToReqId.lookup uid = some rid → s.Pairs rid uid
  kept : ∀ rid uid, s.Pairs rid uid →
    s.useIdToReqId.lookup uid = some rid ∨ (uid, rid) ∈ s.results
  reported : ∀ uid rid, (uid, rid) ∈ s.results → rid = "" ∨ s.Pairs rid uid

/-- The queues are not part of it. -/
lemma Booked.of_eq (h : Booked s) (hmapping : t.useIdToReqId = s.useIdToReqId)
    (hpaired : t.paired = s.paired) (hresults : t.results = s.results) : Booked t := by
  have hpairs : ∀ rid uid, t.Pairs rid uid ↔ s.Pairs rid uid := by
    intro rid uid
    rw [State.Pairs, State.Pairs, hpaired]
  constructor
  · simpa only [hpairs, hmapping] using h.recorded
  · simpa only [hpairs, hmapping, hresults] using h.kept
  · simpa only [hpairs, hresults] using h.reported

lemma pairs_assign (p : Paired) (rid uid : String) :
    (s.assign p).Pairs rid uid ↔ s.Pairs rid uid ∨ p.reqId = rid ∧ p.useId = uid := by
  simp [State.Pairs, State.assign, or_and_right, exists_or]

lemma Booked.assign (h : Booked s) {p : Paired} (hp : ((s.assign p).paired.map Paired.useId).Nodup) :
    Booked (s.assign p) := by
  have hne : ∀ rid uid, s.Pairs rid uid → uid ≠ p.useId := by
    rintro rid uid ⟨q, hq, -, rfl⟩ heq
    rw [State.assign, List.map_append, List.nodup_append] at hp
    exact hp.2.2 _ (List.mem_map.mpr ⟨q, hq, rfl⟩) _ (List.mem_singleton.mpr rfl) heq
  constructor
  · intro rid uid hlookup
    rw [pairs_assign]
    by_cases huid : uid = p.useId
    · subst huid
      rw [State.assign, AList.lookup_insert, Option.some_inj] at hlookup
      exact Or.inr ⟨hlookup, rfl⟩
    · rw [State.assign, AList.lookup_insert_ne huid] at hlookup
      exact Or.inl (h.recorded rid uid hlookup)
  · intro rid uid hpair
    rcases (pairs_assign p rid uid).mp hpair with hold | ⟨rfl, rfl⟩
    · rw [State.assign, AList.lookup_insert_ne (hne rid uid hold)]
      exact h.kept rid uid hold
    · exact Or.inl (AList.lookup_insert _)
  · intro uid rid hmem
    rw [pairs_assign]
    exact (h.reported uid rid hmem).imp_right Or.inl

lemma Booked.toolResultBlock (h : Booked s) (useId : String) : Booked (toolResultBlock useId s) := by
  constructor
  · intro rid uid hlookup
    by_cases huid : uid = useId
    · subst huid
      simp [ToolUse.toolResultBlock] at hlookup
    · rw [ToolUse.toolResultBlock, AList.lookup_erase_ne huid] at hlookup
      exact h.recorded rid uid hlookup
  · intro rid uid hpair
    rcases h.kept rid uid hpair with hlookup | hmem
    · by_cases huid : uid = useId
      · subst huid
        exact Or.inr (by simp [ToolUse.toolResultBlock, hlookup])
      · rw [ToolUse.toolResultBlock, AList.lookup_erase_ne huid]
        exact Or.inl hlookup
    · exact Or.inr (List.mem_append_left _ hmem)
  · intro uid rid hmem
    rcases List.mem_append.mp hmem with hmem | hmem
    · exact h.reported uid rid hmem
    · obtain ⟨rfl, hrid⟩ := Prod.mk.inj (List.mem_singleton.mp hmem)
      cases hlookup : s.useIdToReqId.lookup uid with
      | none => exact Or.inl (by rw [hrid, hlookup, Option.getD_none])
      | some rid' =>
          rw [hrid, hlookup, Option.getD_some]
          exact Or.inr (h.recorded rid' uid hlookup)

/-! ### The invariant -/

/-- What holds of every state that is reached. -/
structure Sound (s : State) : Prop where
  balanced : s.view.Balanced
  short : ∀ c ∈ s.requests ++ s.blocks, Short c.input.1
  requestIds : (s.requests.map Call.id).Nodup
  blockIds : (s.blocks.map Call.id).Nodup
  booked : Booked s

lemma useIds_nodup (h : s.view.Balanced) (hids : (s.blocks.map Call.id).Nodup) :
    (s.paired.map Paired.useId).Nodup := by
  have hrights := h.nodup_rights (by rwa [State.view, List.map_map])
  rwa [State.view, List.map_map] at hrights

lemma reqIds_nodup (h : s.view.Balanced) (hids : (s.requests.map Call.id).Nodup) :
    (s.paired.map Paired.reqId).Nodup := by
  have hlefts := h.nodup_lefts (by rwa [State.view, List.map_map])
  rwa [State.view, List.map_map] at hlefts

/-- What a request does. -/
lemma request_cases (rid name : String) (input : Input) (fi : Frozen) (s : State) :
    ∃ perms blocks, let s' : State :=
        { s with
          requests := s.requests ++ [⟨rid, name, input⟩]
          pendingPerms := perms
          pendingUseBlocks := blocks }
      s.request rid name input fi = s' ∨
        ∃ uid, s.request rid name input fi = s'.assign ⟨rid, uid, name, fi⟩ := by
  rw [State.request, State.pairPermWithBlock]
  cases takeMatch name fi s.pendingUseBlocks with
  | some q => exact ⟨s.pendingPerms, q.2, Or.inr ⟨q.1, rfl⟩⟩
  | none => exact ⟨s.pendingPerms ++ [⟨rid, name, fi⟩], s.pendingUseBlocks, Or.inl rfl⟩

/-- What a block does. -/
lemma block_cases (uid name : String) (input : Input) (fi : Frozen) (s : State) :
    ∃ perms blocks, let s' : State :=
        { s with
          blocks := s.blocks ++ [⟨uid, name, input⟩]
          pendingPerms := perms
          pendingUseBlocks := blocks }
      s.block uid name input fi = s' ∨
        ∃ rid, s.block uid name input fi = s'.assign ⟨rid, uid, name, fi⟩ := by
  rw [State.block, State.pairBlockWithPerm]
  cases takeMatch name fi s.pendingPerms with
  | some q => exact ⟨q.2, s.pendingUseBlocks, Or.inr ⟨q.1, rfl⟩⟩
  | none => exact ⟨s.pendingPerms, s.pendingUseBlocks ++ [⟨uid, name, fi⟩], Or.inl rfl⟩

lemma nodup_ids_append {calls : List Call} {c : Call} (h : (calls.map Call.id).Nodup)
    (hc : c.id ∉ calls.map Call.id) : ((calls ++ [c]).map Call.id).Nodup := by
  rw [List.map_append, List.map_singleton, List.nodup_append]
  refine ⟨h, List.nodup_singleton _, fun x hx y hy heq => hc ?_⟩
  rwa [← List.mem_singleton.mp hy, ← heq]

lemma Sound.request (h : Sound s) {rid name : String} {input : Input} {fi : Frozen}
    (hfi : fi = frozen input.1) (hshort : Short input.1) (hrid : rid ∉ s.requests.map Call.id) :
    Sound (s.request rid name input fi) := by
  have hbalanced : (s.request rid name input fi).view.Balanced := by
    rw [view_request hfi]
    exact h.balanced.offerLeft (name, fi) rid
  have hrequests := nodup_ids_append (c := ⟨rid, name, input⟩) h.requestIds hrid
  have hall : ∀ c ∈ (s.requests ++ [⟨rid, name, input⟩]) ++ s.blocks, Short c.input.1 := by
    intro c hc
    have hshort' := h.short c
    simp only [List.mem_append, List.mem_singleton] at hc hshort'
    rcases hc with (hc | rfl) | hc
    · exact hshort' (Or.inl hc)
    · exact hshort
    · exact hshort' (Or.inr hc)
  obtain ⟨perms, blocks, heq | ⟨uid, heq⟩⟩ := request_cases rid name input fi s
  · rw [heq] at hbalanced ⊢
    exact ⟨hbalanced, hall, hrequests, h.blockIds, h.booked.of_eq rfl rfl rfl⟩
  · rw [heq] at hbalanced ⊢
    have hnodup := useIds_nodup hbalanced h.blockIds
    refine ⟨hbalanced, hall, hrequests, h.blockIds, Booked.assign ?_ hnodup⟩
    exact h.booked.of_eq rfl rfl rfl

lemma Sound.block (h : Sound s) {uid name : String} {input : Input} {fi : Frozen}
    (hfi : fi = frozen input.1) (hshort : Short input.1) (huid : uid ∉ s.blocks.map Call.id) :
    Sound (s.block uid name input fi) := by
  have hbalanced : (s.block uid name input fi).view.Balanced := by
    rw [view_block hfi]
    exact h.balanced.offerRight (name, fi) uid
  have hblocks := nodup_ids_append (c := ⟨uid, name, input⟩) h.blockIds huid
  have hall : ∀ c ∈ s.requests ++ (s.blocks ++ [⟨uid, name, input⟩]), Short c.input.1 := by
    intro c hc
    have hshort' := h.short c
    simp only [List.mem_append, List.mem_singleton] at hc hshort'
    rcases hc with hc | hc | rfl
    · exact hshort' (Or.inl hc)
    · exact hshort' (Or.inr hc)
    · exact hshort
  obtain ⟨perms, blocks, heq | ⟨rid, heq⟩⟩ := block_cases uid name input fi s
  · rw [heq] at hbalanced ⊢
    exact ⟨hbalanced, hall, h.requestIds, hblocks, h.booked.of_eq rfl rfl rfl⟩
  · rw [heq] at hbalanced ⊢
    have hnodup := useIds_nodup hbalanced hblocks
    refine ⟨hbalanced, hall, h.requestIds, hblocks, Booked.assign ?_ hnodup⟩
    exact h.booked.of_eq rfl rfl rfl

lemma Sound.step (h : Sound s) {e : Event} (hok : Distinct r s e)
    (hstep : (system r).step s e = some t) : Sound t := by
  cases e with
  | canUseTool limit u name input =>
      cases hstep
      rw [canUseTool]
      cases r.policy.decide r.host name input.1 r.cwd with
      | accept | deny => exact h
      | needsHitl =>
          cases hfreeze : freeze limit input.1 with
          | none => exact h
          | some fi =>
              obtain ⟨hfi, hshort⟩ := freeze_eq_some hfreeze
              exact h.request hfi hshort hok
  | toolUseBlock limit useId name input =>
      simp only [system] at hstep
      split_ifs at hstep
      cases hstep
      rw [toolUseBlock]
      cases hfreeze : freeze limit input.1 with
      | none =>
          exact ⟨h.balanced, h.short, h.requestIds, h.blockIds, h.booked.of_eq rfl rfl rfl⟩
      | some fi =>
          obtain ⟨hfi, hshort⟩ := freeze_eq_some hfreeze
          exact h.block hfi hshort hok
  | toolResultBlock useId =>
      simp only [system] at hstep
      split_ifs at hstep
      cases hstep
      exact ⟨h.balanced, h.short, h.requestIds, h.blockIds, h.booked.toolResultBlock useId⟩
  | leave =>
      cases hstep
      exact ⟨h.balanced, h.short, h.requestIds, h.blockIds, h.booked.of_eq rfl rfl rfl⟩

theorem sound (h : (system r).ReachableVia (Distinct r) s) : Sound s := by
  refine h.invariant (I := Sound) ?_ fun s e t hs hok hstep => hs.step hok hstep
  rintro s rfl
  refine ⟨Pairing.balanced_empty, List.forall_mem_nil _, List.nodup_nil, List.nodup_nil, ?_, ?_, ?_⟩
  · intro rid uid hlookup
    simp at hlookup
  · rintro rid uid ⟨p, hp, -⟩
    cases hp
  · intro uid rid hmem
    cases hmem

/-! ### Calls of one tool with one input -/

lemma same_iff (i j : Input) : i.same j = true ↔ sortKeys (.mapping i.1) = sortKeys (.mapping j.1) :=
  (sortKeys_eq_iff i.2.keysDistinct j.2.keysDistinct).symm

/-- The calls like a given one are those with its key. -/
lemma idsFor_eq_ofKey {calls : List Call} (hall : ∀ c ∈ calls, Short c.input.1) {c : Call}
    (hc : Short c.input.1) {tool : String} {input : Input} (htool : c.tool = tool)
    (hinput : c.input.same input = true) :
    idsFor tool input calls = ofKey c.key (calls.map fun c => (c.key, c.id)) := by
  rw [ofKey, List.filter_map, List.map_map, idsFor]
  refine congrArg (List.map Call.id) (List.filter_congr fun b hb => ?_)
  have hsame : b.input.same input = true ↔ frozen b.input.1 = frozen c.input.1 := by
    rw [frozen_eq_iff (hall b hb) hc, same_iff, same_iff, (same_iff c.input input).mp hinput]
  subst htool
  rw [Bool.eq_iff_iff]
  simp [Call.key, Prod.ext_iff, hsame]

lemma pairs_iff_mem (rid uid : String) : s.Pairs rid uid ↔ ∃ k, (k, rid, uid) ∈ s.view.pairs := by
  simp [State.Pairs, State.view, Prod.ext_iff]

lemma mem_of_getElem?_idsFor {tool : String} {input : Input} {calls : List Call} {n : ℕ}
    {id : String} (h : (idsFor tool input calls)[n]? = some id) :
    ∃ c ∈ calls, c.tool = tool ∧ c.input.same input = true := by
  obtain ⟨c, hc, -⟩ := List.mem_map.mp (List.mem_of_getElem? h)
  obtain ⟨hmem, hlike⟩ := List.mem_filter.mp hc
  rw [Bool.and_eq_true, decide_eq_true_eq] at hlike
  exact ⟨c, hmem, hlike⟩

lemma Sound.pairs_iff (h : Sound s) (rid uid : String) : s.Pairs rid uid ↔ ∃ tool input, ∃ n : ℕ,
    (idsFor tool input s.requests)[n]? = some rid ∧
      (idsFor tool input s.blocks)[n]? = some uid := by
  have hrequests : ∀ c ∈ s.requests, Short c.input.1 := fun c hc =>
    h.short c (List.mem_append_left _ hc)
  have hblocks : ∀ c ∈ s.blocks, Short c.input.1 := fun c hc =>
    h.short c (List.mem_append_right _ hc)
  rw [pairs_iff_mem]
  constructor
  · rintro ⟨k, hmem⟩
    obtain ⟨n, hrid, huid⟩ := h.balanced.mem_pairs_iff.mp hmem
    have harrived : (k, rid) ∈ s.view.lefts := mem_ofKey.mp (List.mem_of_getElem? hrid)
    obtain ⟨c, hc, hkey⟩ := List.mem_map.mp harrived
    obtain ⟨rfl, -⟩ := Prod.mk.inj hkey
    have hself : c.input.same c.input = true := (same_iff _ _).mpr rfl
    refine ⟨c.tool, c.input, n, ?_, ?_⟩
    · rwa [idsFor_eq_ofKey hrequests (hrequests c hc) rfl hself]
    · rwa [idsFor_eq_ofKey hblocks (hrequests c hc) rfl hself]
  · rintro ⟨tool, input, n, hrid, huid⟩
    obtain ⟨c, hc, htool, hinput⟩ := mem_of_getElem?_idsFor hrid
    rw [idsFor_eq_ofKey hrequests (hrequests c hc) htool hinput] at hrid
    rw [idsFor_eq_ofKey hblocks (hrequests c hc) htool hinput] at huid
    exact ⟨c.key, h.balanced.mem_pairs_iff.mpr ⟨n, hrid, huid⟩⟩

lemma Sound.matched (h : Sound s) {c b : Call} (hc : c ∈ s.requests) (hb : b ∈ s.blocks)
    (htool : c.tool = b.tool) (hsame : c.input.same b.input = true) :
    (∃ uid, s.Pairs c.id uid) ∨ ∃ rid, s.Pairs rid b.id := by
  have hkey : c.key = b.key := by
    rw [Call.key, Call.key, htool, (frozen_eq_iff (h.short c (List.mem_append_left _ hc))
      (h.short b (List.mem_append_right _ hb))).mpr hsame]
  have hleft : (c.key, c.id) ∈ s.view.lefts := List.mem_map.mpr ⟨c, hc, rfl⟩
  have hright : (c.key, b.id) ∈ s.view.rights := List.mem_map.mpr ⟨b, hb, by rw [hkey]⟩
  simp only [pairs_iff_mem]
  rcases h.balanced.paired_of_arrived hleft hright with ⟨uid, hmem⟩ | ⟨rid, hmem⟩
  · exact Or.inl ⟨uid, c.key, hmem⟩
  · exact Or.inr ⟨rid, c.key, hmem⟩

lemma Sound.injective (h : Sound s) {rid uid rid' uid' : String} (hpair : s.Pairs rid uid)
    (hpair' : s.Pairs rid' uid') : rid = rid' ↔ uid = uid' := by
  obtain ⟨p, hp, rfl, rfl⟩ := hpair
  obtain ⟨q, hq, rfl, rfl⟩ := hpair'
  constructor
  · intro heq
    rw [List.inj_on_of_nodup_map (reqIds_nodup h.balanced h.requestIds) hp hq heq]
  · intro heq
    rw [List.inj_on_of_nodup_map (useIds_nodup h.balanced h.blockIds) hp hq heq]

/-- **In every session requests and blocks are correlated**, whatever the policy, the order of the
events, the tools and their inputs. -/
theorem correlated (h : (system r).ReachableVia (Distinct r) s) : Correlated s where
  pairs_iff := (sound h).pairs_iff
  injective _ _ _ _ := (sound h).injective
  matched _ hc _ hb := (sound h).matched hc hb
  recorded := (sound h).booked.recorded
  kept := (sound h).booked.kept
  reported := (sound h).booked.reported

/-- A runner with the default policy. -/
def defaultRunner : Runner where
  policy := {}
  host := { workingDir := .ofText "/work".toList, lower := id }
  cwd := .ofText "/work".toList
  sessionId := "s1"

/-- A session in which the block of a call comes first, with its keys in another order. -/
def swappedKeys : List Event :=
  [.toolUseBlock 9 "toolu_1" "Bash"
    ⟨[("env", .mapping [("A", .str "1"), ("B", .str "2")]), ("command", .str "ls")], by decide⟩,
   .canUseTool 9 0 "Bash"
    ⟨[("command", .str "ls"), ("env", .mapping [("B", .str "2"), ("A", .str "1")])], by decide⟩]

theorem correlated_swappedKeys : ∃ s,
    (system defaultRunner).checkedRun (Distinct defaultRunner) {} swappedKeys = some s ∧
      Correlated s ∧ s.Pairs "s1:000000000000" "toolu_1" := by
  have hrun : ((system defaultRunner).checkedRun (Distinct defaultRunner) {} swappedKeys).map
      (fun s => s.useIdToReqId.lookup "toolu_1") = some (some "s1:000000000000") := by
    decide +kernel
  obtain ⟨s, hs, hlookup⟩ := Option.map_eq_some_iff.mp hrun
  have hcorrelated : Correlated s := correlated (.of_checkedRun (.init rfl) hs)
  exact ⟨s, hs, hcorrelated, hcorrelated.recorded _ _ hlookup⟩

end GgRelay.ToolUse
