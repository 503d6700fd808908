import GgRelay.Api.Cost

/-!
The role checks of the routes (`api/dependencies/require_role.py`), over the role that
`_resolve_role` gives a caller.
-/

namespace GgRelay

open Cost

namespace Roles

/-- `require_role(min_role)`. -/
def requireRole (minRole : String) (c : Caller) : Except Forbidden String :=
  if roleRank c.resolveRole < roleRank minRole then
    .error ⟨"forbidden", "insufficient_role", minRole, c.resolveRole⟩
  else .ok c.resolveRole

/-- What `require_role_or_own_session` raises. -/
inductive OwnRejection where
  /-- 403, with the `session_owner` of a `not_owner` -/
  | forbidden (detail : Forbidden) (sessionOwner : Option (Option String))
  /-- 404 -/
  | sessionNotFound
  deriving DecidableEq, Repr

/-- `require_role_or_own_session(min_role)`: `owner?` is what the lookup of the session comes back
with, `none` where it raises. -/
def requireRoleOrOwnSession (minRole : String) (c : Caller)
    (owner? : Option (Option (Option String))) : Except OwnRejection String :=
  match requireRole minRole c with
  | .ok role => .ok role
  | .error _ =>
      match c.apiKeyLabel with
      | none =>
          .error (.forbidden ⟨"forbidden", "no_ownership_check_possible", minRole, c.resolveRole⟩
            none)
      | some label =>
          match owner? with
          | none =>
              .error (.forbidden ⟨"forbidden", "ownership_check_error", minRole, c.resolveRole⟩
                none)
          | some none => .error .sessionNotFound
          | some (some owner) =>
              if owner = some label then .ok minRole
              else
                .error (.forbidden ⟨"forbidden", "not_owner", minRole, c.resolveRole⟩ (some owner))

variable {minRole : String} {c : Caller} {r : String}

lemma requireRole_eq_ok :
    requireRole minRole c = .ok r ↔
      roleRank minRole ≤ roleRank c.resolveRole ∧ c.resolveRole = r := by
  rw [requireRole]
  split_ifs with h
  · exact iff_of_false (by simp) fun hr => absurd hr.1 (by omega)
  · exact ⟨fun hr => ⟨by omega, Except.ok.inj hr⟩, fun hr => congrArg Except.ok hr.2⟩

/-- Whoever has no label has no role. -/
lemma label_of_rank (h : 0 < roleRank c.resolveRole) : c.apiKeyLabel ≠ none := by
  intro hlabel
  rw [Caller.resolveRole, hlabel] at h
  exact absurd h (lt_irrefl 0)

lemma label_of_requireRole (hmin : 0 < roleRank minRole) (h : requireRole minRole c = .ok r) :
    c.apiKeyLabel ≠ none :=
  label_of_rank (hmin.trans_le (requireRole_eq_ok.mp h).1)

/-- The callers that get through are those with the role, and the owner of the session. -/
lemma requireRoleOrOwnSession_ok {owner? : Option (Option (Option String))} :
    (∃ r, requireRoleOrOwnSession minRole c owner? = .ok r) ↔
      roleRank minRole ≤ roleRank c.resolveRole ∨
        ∃ label, c.apiKeyLabel = some label ∧ owner? = some (some (some label)) := by
  rw [requireRoleOrOwnSession, requireRole]
  split_ifs with hrank
  · have hrank' : ¬roleRank minRole ≤ roleRank c.resolveRole := by omega
    cases c.apiKeyLabel with
    | none => simp [hrank']
    | some label =>
        rcases owner? with - | - | owner
        · simp [hrank']
        · simp [hrank']
        · by_cases howner : owner = some label <;> simp [hrank', howner]
  · exact iff_of_true ⟨_, rfl⟩ (Or.inl (by omega))

end Roles

end GgRelay
