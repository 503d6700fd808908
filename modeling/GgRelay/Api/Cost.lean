import GgRelay.Lib.Dict
import GgRelay.Lib.TopRows
import Mathlib.Data.String.Basic
import Mathlib.Order.WithBot

/-!
The cost of the owners (`api/routers/cost.py`, `cost_per_owner`, over
`SqlAlchemyStore.aggregate_cost_by_owner`).

* `Answers` says what the database may return: the groups in an order that the key admits, as many
  as the limit;
* `costPerOwner` is the endpoint, `callOwner` whose cost it is asked for;
* `per_owner_exact_iff` says when an owner gets their cost, `small_spender_is_missing` is a store in
  which one does not.
-/

namespace GgRelay.Cost

/-- A `datetime`, in microseconds. -/
abbrev Instant := ℤ

/-- What is read of a `sessions` row. -/
structure SessionCost where
  owner : Option String
  submittedAt : Instant
  costUsd : ℚ
  deriving DecidableEq, Repr

/-- `order_by`. -/
inductive OrderBy where
  | cost
  | sessions
  | owner
  deriving DecidableEq, Repr

/-- The parameters of the query, as FastAPI lets them pass. -/
structure CostQuery where
  owner : Option String := none
  fromTs : Option Instant := none
  toTs : Option Instant := none
  limit : ℕ := 50
  one_le_limit : 1 ≤ limit := by decide
  limit_le : limit ≤ 200 := by decide
  orderBy : OrderBy := .cost

/-- A row of the result. -/
structure OwnerCost where
  owner : Option String
  sessionCount : ℕ
  totalCostUsd : ℚ
  deriving DecidableEq, Repr

/-- The order of the owners: the collation of the database, and where it puts NULL. -/
structure Collation (κ : Type) where
  rank : Option String → κ

/-! ### The aggregate -/

section Aggregate

variable (q : CostQuery) (rows : List SessionCost)

/-- The `WHERE`. -/
def CostQuery.inWindow (r : SessionCost) : Bool :=
  q.fromTs.all (· ≤ r.submittedAt) && q.toTs.all (r.submittedAt ≤ ·)

/-- The sessions of an owner in the window. -/
def sessionsOf (owner : Option String) : List SessionCost :=
  rows.filter fun r => q.inWindow r && decide (r.owner = owner)

/-- A group, with its aggregates. -/
def ownerCost (owner : Option String) : OwnerCost where
  owner := owner
  sessionCount := (sessionsOf q rows owner).length
  totalCostUsd := ((sessionsOf q rows owner).map SessionCost.costUsd).sum

/-- The `GROUP BY`. -/
def groups : List OwnerCost :=
  (((rows.filter q.inWindow).map SessionCost.owner).dedup).map (ownerCost q rows)

variable {κ : Type} [LinearOrder κ] (C : Collation κ)

/-- The `ORDER BY`: whether a group may come before another. -/
def mayPrecede (orderBy : OrderBy) (a b : OwnerCost) : Prop :=
  match orderBy with
  | .cost => b.totalCostUsd ≤ a.totalCostUsd
  | .sessions => b.sessionCount ≤ a.sessionCount
  | .owner => C.rank a.owner ≤ C.rank b.owner

instance (orderBy : OrderBy) : DecidableRel (mayPrecede C orderBy) := fun a b =>
  match orderBy with
  | .cost => inferInstanceAs (Decidable (b.totalCostUsd ≤ a.totalCostUsd))
  | .sessions => inferInstanceAs (Decidable (b.sessionCount ≤ a.sessionCount))
  | .owner => inferInstanceAs (Decidable (C.rank a.owner ≤ C.rank b.owner))

/-- `aggregate_cost_by_owner`: what the database may return. -/
def Answers (answer : List OwnerCost) : Prop :=
  ∃ ordered, TopRows.Arranged (mayPrecede C q.orderBy) (groups q rows) ordered ∧
    answer = ordered.take q.limit

end Aggregate

/-! ### The endpoint -/

/-- What the endpoint reads of the request and of the configuration. -/
structure Caller where
  apiKeyLabel : Option String
  apiKeyRole : Option String
  roleOverrideMode : String
  roleMapping : Dict String String

/-- `ROLE_HIERARCHY.get(role, 0)`. -/
def roleRank : String → ℕ
  | "submitter" => 1
  | "admin" => 2
  | _ => 0

/-- `_resolve_role`. -/
def Caller.resolveRole (c : Caller) : String :=
  match c.apiKeyLabel with
  | none => "viewer"
  | some label =>
      if c.roleOverrideMode = "db" ∧ c.apiKeyRole.any (· ≠ "") then c.apiKeyRole.getD ""
      else (c.roleMapping.lookup label).getD "viewer"

/-- `_is_admin`. -/
def Caller.isAdmin (c : Caller) : Bool := roleRank "admin" ≤ roleRank c.resolveRole

/-- `api_key_label or "anon"`. -/
def Caller.label (c : Caller) : String := (c.apiKeyLabel.filter (· ≠ "")).getD "anon"

/-- The detail of a 403. -/
structure Forbidden where
  error : String
  code : String
  requiredRole : String
  currentRole : String
  deriving DecidableEq, Repr

/-- Whose cost is asked for: `none` for everyone's. -/
def callOwner (c : Caller) (q : CostQuery) : Except Forbidden (Option String) :=
  if c.isAdmin then .ok q.owner
  else if q.owner.any (· ≠ c.label) then
    .error ⟨"cannot view other owners' cost", "forbidden_cost_view", "admin", c.resolveRole⟩
  else .ok (some c.label)

/-- `cost_per_owner`, from the answer of the database. -/
def costPerOwner (c : Caller) (q : CostQuery) (answer : List OwnerCost) :
    Except Forbidden (List OwnerCost) :=
  (callOwner c q).map fun owner =>
    match owner with
    | some owner => answer.filter fun r => r.owner = some owner
    | none => answer

/-! ### Whose cost it is -/

section Exact

variable {q : CostQuery} {rows : List SessionCost} {κ : Type} [LinearOrder κ] {C : Collation κ}

instance (orderBy : OrderBy) : Std.Total (mayPrecede C orderBy) where
  total a b := by
    cases orderBy with
    | cost => exact le_total b.totalCostUsd a.totalCostUsd
    | sessions => exact le_total b.sessionCount a.sessionCount
    | owner => exact le_total (C.rank a.owner) (C.rank b.owner)

instance (orderBy : OrderBy) : IsTrans OwnerCost (mayPrecede C orderBy) where
  trans a b c hab hbc := by
    cases orderBy with
    | cost => exact le_trans hbc hab
    | sessions => exact le_trans hbc hab
    | owner => exact le_trans hab hbc

lemma ownerCost_injective : Function.Injective (ownerCost q rows) :=
  fun _ _ h => congrArg OwnerCost.owner h

lemma nodup_groups : (groups q rows).Nodup :=
  (List.nodup_dedup _).map ownerCost_injective

lemma ownerCost_mem_groups {owner : Option String}
    (h : ∃ r ∈ rows, q.inWindow r ∧ r.owner = owner) : ownerCost q rows owner ∈ groups q rows := by
  obtain ⟨r, hr, hwindow, rfl⟩ := h
  refine List.mem_map_of_mem (List.mem_dedup.mpr ?_)
  exact List.mem_map_of_mem (List.mem_filter.mpr ⟨hr, hwindow⟩)

/-- A group is that of its owner. -/
lemma eq_ownerCost {g : OwnerCost} (h : g ∈ groups q rows) : g = ownerCost q rows g.owner := by
  obtain ⟨owner, -, rfl⟩ := List.mem_map.mp h
  rfl

/-- The filter finds the group of the owner, if the answer has it. -/
lemma filter_owner_eq_iff {answer : List OwnerCost} (owner : Option String)
    (hnodup : answer.Nodup) (hgroups : ∀ g ∈ answer, g ∈ groups q rows) :
    answer.filter (fun r => r.owner = owner) = [ownerCost q rows owner] ↔
      ownerCost q rows owner ∈ answer := by
  constructor
  · intro h
    have hmem : ownerCost q rows owner ∈ answer.filter fun r => r.owner = owner :=
      h ▸ List.mem_singleton_self _
    exact (List.mem_filter.mp hmem).1
  · intro hmem
    have hfilter : answer.filter (fun r => r.owner = owner)
        = answer.filter fun r => r = ownerCost q rows owner := by
      refine List.filter_congr fun g hg => decide_eq_decide.mpr ⟨fun howner => ?_, fun h => ?_⟩
      · rw [eq_ownerCost (hgroups g hg), howner]
      · rw [h]
        rfl
    rw [hfilter, List.filter_eq, List.count_eq_one_of_mem hnodup hmem, List.replicate_one]

end Exact

/-- An owner with a session in the window gets the row with their cost, whatever order the database
chooses among equals, exactly when fewer groups than the limit can come before theirs. -/
theorem per_owner_exact_iff {κ : Type} [LinearOrder κ] (C : Collation κ) (q : CostQuery)
    (rows : List SessionCost) (c : Caller) (owner : String)
    (howner : callOwner c q = .ok (some owner))
    (hsession : ∃ r ∈ rows, q.inWindow r ∧ r.owner = some owner) :
    (∀ answer, Answers q rows C answer →
        costPerOwner c q answer = .ok [ownerCost q rows (some owner)]) ↔
      TopRows.ahead (mayPrecede C q.orderBy) (groups q rows) (ownerCost q rows (some owner))
        < q.limit := by
  rw [← TopRows.forall_mem_take_iff nodup_groups (ownerCost_mem_groups hsession)]
  have hanswer : ∀ ordered, TopRows.Arranged (mayPrecede C q.orderBy) (groups q rows) ordered →
      (costPerOwner c q (ordered.take q.limit) = .ok [ownerCost q rows (some owner)] ↔
        ownerCost q rows (some owner) ∈ ordered.take q.limit) := by
    intro ordered h
    rw [costPerOwner, howner, ← filter_owner_eq_iff (some owner)
      ((h.1.nodup_iff.mpr nodup_groups).sublist (List.take_sublist _ _))
      (fun g hg => h.1.mem_iff.mp (List.mem_of_mem_take hg))]
    exact ⟨Except.ok.inj, congrArg Except.ok⟩
  constructor
  · exact fun h ordered hordered => (hanswer ordered hordered).mp (h _ ⟨ordered, hordered, rfl⟩)
  · rintro h answer ⟨ordered, hordered, rfl⟩
    exact (hanswer ordered hordered).mpr (h ordered hordered)

/-- NULL comes first, as in SQLite. -/
def nullsFirst : Collation (WithBot String) := ⟨id⟩

/-- Alice has spent more than Bob. -/
def twoOwners : List SessionCost := [⟨some "alice", 0, 5⟩, ⟨some "bob", 1, 1⟩]

/-- Bob, who is no admin. -/
def bob : Caller := ⟨some "bob", some "submitter", "db", ∅⟩

theorem per_owner_exact_bob :
    callOwner bob {} = .ok (some "bob") ∧
      ∀ answer, Answers {} twoOwners nullsFirst answer →
        costPerOwner bob {} answer = .ok [ownerCost {} twoOwners (some "bob")] :=
  ⟨rfl, (per_owner_exact_iff nullsFirst {} twoOwners bob "bob" rfl
    ⟨⟨some "bob", 1, 1⟩, by decide, rfl, rfl⟩).mpr (by decide +kernel)⟩

/-- With a limit of 1 Bob is told of no cost: the one group that is fetched is Alice's. -/
theorem small_spender_is_missing :
    callOwner bob { limit := 1 } = .ok (some "bob") ∧
      (∃ r ∈ twoOwners, CostQuery.inWindow { limit := 1 } r ∧ r.owner = some "bob") ∧
      Answers { limit := 1 } twoOwners nullsFirst [⟨some "alice", 1, 5⟩] ∧
      costPerOwner bob { limit := 1 } [⟨some "alice", 1, 5⟩] = .ok [] := by
  refine ⟨rfl, ⟨⟨some "bob", 1, 1⟩, by decide, rfl, rfl⟩,
    ⟨[⟨some "alice", 1, 5⟩, ⟨some "bob", 1, 1⟩], ⟨?_, ?_⟩, rfl⟩, rfl⟩
  · decide +kernel
  · decide +kernel

end GgRelay.Cost
