import GgRelay.Lib.Dict

/-!
Dictionaries ordered by last use, with a cap: the newest key first, and the key used first is
dropped before a new one comes in.

* `Dict.overflow` is the key that has to go, if the cap is reached;
* `Dict.length_makeRoom_lt`: then there is room for one more.
-/

namespace GgRelay.Dict

universe u v

variable {α : Type u} {β : Type v}

/-- The key used first, if the cap is reached. -/
def overflow (cap : ℕ) (d : Dict α β) : Option α :=
  if cap ≤ d.entries.length then d.entries.getLast?.map Sigma.fst else none

variable {cap : ℕ} {d : Dict α β} {a : α}

lemma mem_of_overflow (h : d.overflow cap = some a) : a ∈ d := by
  unfold overflow at h
  split at h
  · obtain ⟨p, hp, rfl⟩ := Option.map_eq_some_iff.mp h
    exact List.mem_map_of_mem (List.mem_of_getLast? hp)
  · simp at h

/-- Nothing has to go as long as there is room. -/
lemma length_lt_of_overflow (hcap : 0 < cap) (h : d.overflow cap = none) :
    d.keys.length < cap := by
  rw [AList.keys, List.keys, List.length_map]
  by_contra hge
  have hle : cap ≤ d.entries.length := not_lt.mp hge
  rw [overflow, if_pos hle, Option.map_eq_none_iff, List.getLast?_eq_none_iff] at h
  rw [h, List.length_nil] at hle
  omega

variable [DecidableEq α]

/-- Drop the key used first, if the cap is reached. -/
def makeRoom (cap : ℕ) (d : Dict α β) : Dict α β := (d.overflow cap).elim d d.erase

lemma lookup_makeRoom (h : d.overflow cap ≠ some a) : (d.makeRoom cap).lookup a = d.lookup a := by
  unfold makeRoom
  cases hv : d.overflow cap with
  | none => rfl
  | some victim =>
      have hne : a ≠ victim := fun heq => h (heq ▸ hv)
      exact AList.lookup_erase_ne hne

lemma lookup_makeRoom_of_overflow (h : d.overflow cap = some a) :
    (d.makeRoom cap).lookup a = none := by
  rw [makeRoom, h]
  exact AList.lookup_erase _ _

/-- After the eviction there is room for one more key. -/
lemma length_makeRoom_lt (hcap : 0 < cap) (h : d.keys.length ≤ cap) :
    (d.makeRoom cap).keys.length < cap := by
  unfold makeRoom
  cases hv : d.overflow cap with
  | none => exact length_lt_of_overflow hcap hv
  | some victim =>
      have hmem : victim ∈ d.keys := AList.mem_keys.mp (mem_of_overflow hv)
      have hpos := List.length_pos_of_mem hmem
      rw [Option.elim_some, AList.keys_erase, List.length_erase_of_mem hmem]
      omega

/-- The dictionary stays under its cap when a key is put in front of it. -/
lemma length_insert_le {b : β} (h : a ∈ d ∧ d.keys.length ≤ cap ∨ d.keys.length < cap) :
    (d.insert a b).keys.length ≤ cap := by
  rw [AList.keys_insert, List.length_cons]
  rcases h with ⟨hmem, hle⟩ | hlt
  · have hmem' := AList.mem_keys.mp hmem
    have hpos := List.length_pos_of_mem hmem'
    rw [List.length_erase_of_mem hmem']
    omega
  · have herase := List.length_erase_le (a := a) (l := d.keys)
    omega

end GgRelay.Dict
