import Mathlib.Tactic

/-!
JSON values as a dynamic language holds them: an array is a list or a tuple, a mapping is the
list of its items in insertion order.

`Json.rec_members` is the induction over the members of arrays and mappings that stands in for
the nested recursor.
-/

namespace GgRelay

/-- The values without members that are not strings. -/
inductive Scalar where
  | null
  | bool (b : Bool)
  | int (n : ℤ)
  /-- a float, a date, any other object, by its representation -/
  | other (repr : String)
  deriving DecidableEq, Repr

/-- A JSON value; no key of a mapping occurs twice. -/
inductive Json where
  | scalar (a : Scalar)
  | str (s : String)
  | list (vs : List Json)
  | tuple (vs : List Json)
  | mapping (d : List (String × Json))
  deriving Repr

namespace Json

/-- **Induction over the members of a value.** -/
@[elab_as_elim]
theorem rec_members {P : Json → Prop} (scalar : ∀ a, P (.scalar a)) (str : ∀ s, P (.str s))
    (list : ∀ vs, (∀ v ∈ vs, P v) → P (.list vs))
    (tuple : ∀ vs, (∀ v ∈ vs, P v) → P (.tuple vs))
    (mapping : ∀ d, (∀ kv ∈ d, P kv.2) → P (.mapping d)) (j : Json) : P j := by
  refine @Json.rec P (fun vs => ∀ v ∈ vs, P v) (fun d => ∀ kv ∈ d, P kv.2) (fun kv => P kv.2)
    scalar str list tuple mapping ?_ ?_ ?_ ?_ ?_ j
  · exact fun v hv => absurd hv List.not_mem_nil
  · intro v vs hv hvs
    exact List.forall_mem_cons.mpr ⟨hv, hvs⟩
  · exact fun kv hkv => absurd hkv List.not_mem_nil
  · intro kv d hkv hd
    exact List.forall_mem_cons.mpr ⟨hkv, hd⟩
  · exact fun _ _ hv => hv

end Json

end GgRelay
