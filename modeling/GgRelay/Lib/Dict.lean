import Mathlib.Data.List.AList
import Mathlib.Tactic

/-!
Dictionaries: association lists without repeated keys, the newest key first.

* `Dict.mapValues` rewrites the values in place;
* `Dict.lookup_mapValues` says what it does to a key;
* `Dict.update` assigns a list of pairs in turn: a key it assigns forgets what it held
  (`Dict.lookup_update_of_mem`), any other keeps it (`Dict.lookup_update_of_not_mem`);
  `Dict.lookup_update_filterMap` is the case of pairs copied from a partial function.
-/

namespace GgRelay

universe u v

/-- A dictionary: no key occurs twice. -/
abbrev Dict (α : Type u) (β : Type v) := AList fun _ : α => β

namespace Dict

variable {α : Type u} {β : Type v}

/-- Rewrite every value in place: the keys and their order stay. -/
def mapValues (f : α → β → β) (d : Dict α β) : Dict α β where
  entries := d.entries.map fun p => ⟨p.1, f p.1 p.2⟩
  nodupKeys := by
    have hkeys : (d.entries.map fun p : (_ : α) × β => (⟨p.1, f p.1 p.2⟩ : (_ : α) × β)).keys
        = d.entries.keys := by
      rw [List.keys, List.map_map]
      rfl
    rw [List.NodupKeys, hkeys]
    exact d.keys_nodup

variable (f : α → β → β) (d : Dict α β)

variable [DecidableEq α]

/-- Each value is rewritten under its own key. -/
@[simp] theorem lookup_mapValues (a : α) :
    (mapValues f d).lookup a = (d.lookup a).map (f a) := by
  obtain ⟨l, hl⟩ := d
  simp only [mapValues, AList.lookup]
  clear hl
  induction l with
  | nil => rfl
  | cons p l ih =>
      obtain ⟨b, x⟩ := p
      by_cases h : a = b
      · subst h
        simp [List.dlookup_cons_eq]
      · simp only [List.map_cons]
        rw [List.dlookup_cons_ne _ ⟨b, _⟩ h, List.dlookup_cons_ne _ ⟨b, _⟩ h, ih]

/-- Assign the pairs in turn. -/
def update (d : Dict α β) (ps : List (α × β)) : Dict α β :=
  ps.foldl (fun e p => e.insert p.1 p.2) d

/-- What is not assigned stays. -/
theorem lookup_update_of_not_mem {ps : List (α × β)} {a : α} (h : a ∉ ps.map Prod.fst)
    (d : Dict α β) : (d.update ps).lookup a = d.lookup a := by
  induction ps generalizing d with
  | nil => rfl
  | cons p ps ih =>
      rw [List.map_cons, List.mem_cons, not_or] at h
      have hp : (d.insert p.1 p.2).lookup a = d.lookup a := AList.lookup_insert_ne h.1
      rw [← hp]
      exact ih h.2 _

/-- What is assigned does not depend on what was there. -/
theorem lookup_update_of_mem {ps : List (α × β)} {a : α} (h : a ∈ ps.map Prod.fst)
    (d e : Dict α β) : (d.update ps).lookup a = (e.update ps).lookup a := by
  induction ps generalizing d e with
  | nil => exact absurd h List.not_mem_nil
  | cons p ps ih =>
      by_cases hps : a ∈ ps.map Prod.fst
      · exact ih hps _ _
      · have ha : a = p.1 := by
          simpa [hps] using h
        have hd : (d.insert p.1 p.2).lookup a = some p.2 := ha ▸ AList.lookup_insert _
        have he : (e.insert p.1 p.2).lookup a = some p.2 := ha ▸ AList.lookup_insert _
        calc (update (d.insert p.1 p.2) ps).lookup a
            = some p.2 := (lookup_update_of_not_mem hps _).trans hd
          _ = (update (e.insert p.1 p.2) ps).lookup a :=
            ((lookup_update_of_not_mem hps _).trans he).symm

/-- Copying the keys of a list from a partial function. -/
theorem lookup_update_filterMap (f : α → Option β) (ks : List α) (a : α) (d : Dict α β) :
    (update d (ks.filterMap fun k => (f k).map fun v => (k, v))).lookup a
      = if a ∈ ks then (f a).or (d.lookup a) else d.lookup a := by
  induction ks generalizing d with
  | nil => rfl
  | cons k ks ih =>
      cases hk : f k with
      | none =>
          rw [List.filterMap_cons_none (by rw [hk]; rfl), ih]
          by_cases ha : a = k
          · subst ha
            simp [hk]
          · simp [ha]
      | some v =>
          rw [List.filterMap_cons_some (by rw [hk]; rfl), update, List.foldl_cons]
          refine (ih _).trans ?_
          by_cases ha : a = k
          · subst ha
            simp [hk]
          · simp [ha, AList.lookup_insert_ne ha]

end Dict

end GgRelay
