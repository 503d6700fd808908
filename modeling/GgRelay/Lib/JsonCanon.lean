import Mathlib.Data.String.Basic
import GgRelay.Lib.JsonRoundTrip

/-!
The canonical text of a JSON value, `json.dumps(…, sort_keys=True)`.

* `Json.same` is equality up to the order of the items of mappings, at every depth;
* `Json.sortKeys` is the value with the items of its mappings in order, `sortKeys_eq_iff` says that
  it is a normal form for `same`;
* `write_sortKeys_eq_iff`: the canonical texts of JSON values are the same just if the values are.
-/

namespace GgRelay

namespace Json

/-! ### Equality up to the order of items -/

mutual

/-- Equal up to the order of the items of mappings; numbers are equal when they are written alike. -/
def same : Json → Json → Bool
  | .scalar a, .scalar b => a = b
  | .str s, .str t => s = t
  | .list vs, .list ws => sameMembers vs ws
  | .tuple vs, .tuple ws => sameMembers vs ws
  | .mapping d, .mapping e => d.length = e.length && sameItems d e
  | _, _ => false

def sameMembers : List Json → List Json → Bool
  | [], [] => true
  | v :: vs, w :: ws => same v w && sameMembers vs ws
  | _, _ => false

/-- Each of the items has its like among others. -/
def sameItems : List (String × Json) → List (String × Json) → Bool
  | [], _ => true
  | (k, v) :: d, e => (match e.lookup k with | some w => same v w | none => false) && sameItems d e

end

lemma sameMembers_iff (vs ws : List Json) :
    sameMembers vs ws = true ↔ List.Forall₂ (fun v w => same v w = true) vs ws := by
  induction vs generalizing ws with
  | nil => cases ws <;> simp [sameMembers]
  | cons v vs ih =>
      cases ws with
      | nil => simp [sameMembers]
      | cons w ws => rw [sameMembers, Bool.and_eq_true, ih, List.forall₂_cons]

lemma sameItems_iff (d e : List (String × Json)) :
    sameItems d e = true ↔ ∀ kv ∈ d, ∃ w, e.lookup kv.1 = some w ∧ same kv.2 w = true := by
  induction d with
  | nil => simp [sameItems]
  | cons kv d ih =>
      obtain ⟨k, v⟩ := kv
      rw [sameItems, Bool.and_eq_true, ih, List.forall_mem_cons]
      cases e.lookup k <;> simp

lemma same_mapping_iff (d e : List (String × Json)) : same (.mapping d) (.mapping e) = true ↔
    d.length = e.length ∧ ∀ kv ∈ d, ∃ w, e.lookup kv.1 = some w ∧ same kv.2 w = true := by
  rw [same, Bool.and_eq_true, decide_eq_true_eq, sameItems_iff]

/-! ### Items by their keys -/

section Items

variable {α β : Type} {d e : List (String × α)}

lemma lookup_eq_some_iff_mem (h : (d.map Prod.fst).Nodup) {k : String} {v : α} :
    d.lookup k = some v ↔ (k, v) ∈ d := by
  induction d with
  | nil => simp
  | cons kv d ih =>
      obtain ⟨hkv, hd⟩ := List.nodup_cons.mp h
      obtain ⟨l, w⟩ := kv
      by_cases hk : k = l
      · subst hk
        have hnot : (k, v) ∉ d := fun hmem => hkv (List.mem_map.mpr ⟨_, hmem, rfl⟩)
        simp [hnot, eq_comm]
      · simp [List.lookup_cons, beq_false_of_ne hk, hk, ih hd]

/-- Items with distinct keys, their values seen through a function, are the same in some order. -/
lemma perm_items_iff (f : α → β) (hd : (d.map Prod.fst).Nodup) (he : (e.map Prod.fst).Nodup) :
    (d.map fun kv => (kv.1, f kv.2)).Perm (e.map fun kv => (kv.1, f kv.2)) ↔
      d.length = e.length ∧ ∀ kv ∈ d, ∃ w, e.lookup kv.1 = some w ∧ f kv.2 = f w := by
  have hnodup : ∀ {c : List (String × α)}, (c.map Prod.fst).Nodup →
      (c.map fun kv => (kv.1, f kv.2)).Nodup := by
    intro c hc
    refine List.Nodup.of_map Prod.fst ?_
    rwa [List.map_map]
  have hmem : (∀ kv ∈ d, ∃ w, e.lookup kv.1 = some w ∧ f kv.2 = f w) ↔
      (d.map fun kv => (kv.1, f kv.2)) ⊆ e.map fun kv => (kv.1, f kv.2) := by
    constructor
    · intro h p hp
      obtain ⟨kv, hkv, rfl⟩ := List.mem_map.mp hp
      obtain ⟨w, hw, hf⟩ := h kv hkv
      exact List.mem_map.mpr ⟨(kv.1, w), (lookup_eq_some_iff_mem he).mp hw, by rw [hf]⟩
    · intro h kv hkv
      obtain ⟨⟨k, w⟩, hkw, heq⟩ := List.mem_map.mp (h (List.mem_map.mpr ⟨kv, hkv, rfl⟩))
      obtain ⟨rfl, hf⟩ := Prod.ext_iff.mp heq
      exact ⟨w, (lookup_eq_some_iff_mem he).mpr hkw, hf.symm⟩
  rw [hmem]
  constructor
  · intro h
    exact ⟨by simpa using h.length_eq, h.subset⟩
  · rintro ⟨hlength, hsubset⟩
    exact (List.subperm_of_subset (hnodup hd) hsubset).perm_of_length_le (by simp [hlength])

end Items

/-! ### Sorted keys -/

/-- The order of the items: by their keys. -/
def keyLe (p q : String × Json) : Prop := p.1 ≤ q.1

instance : DecidableRel keyLe := fun p q => inferInstanceAs (Decidable (p.1 ≤ q.1))

instance : Std.Total keyLe := ⟨fun p q => le_total p.1 q.1⟩

instance : IsTrans _ keyLe := ⟨fun _ _ _ hpq hqr => le_trans (α := String) hpq hqr⟩

mutual

/-- The value with the items of each mapping in the order of their keys. -/
def sortKeys : Json → Json
  | .scalar a => .scalar a
  | .str s => .str s
  | .list vs => .list (sortKeysMembers vs)
  | .tuple vs => .tuple (sortKeysMembers vs)
  | .mapping d => .mapping ((sortKeysItems d).insertionSort keyLe)

def sortKeysMembers : List Json → List Json
  | [] => []
  | v :: vs => sortKeys v :: sortKeysMembers vs

def sortKeysItems : List (String × Json) → List (String × Json)
  | [] => []
  | (k, v) :: d => (k, sortKeys v) :: sortKeysItems d

end

lemma sortKeysMembers_eq_map (vs : List Json) : sortKeysMembers vs = vs.map sortKeys := by
  induction vs with
  | nil => rfl
  | cons v vs ih => rw [sortKeysMembers, ih, List.map_cons]

lemma sortKeysItems_eq_map (d : List (String × Json)) :
    sortKeysItems d = d.map fun kv => (kv.1, sortKeys kv.2) := by
  induction d with
  | nil => rfl
  | cons kv d ih => rw [sortKeysItems, ih, List.map_cons]

lemma map_fst_sortKeysItems (d : List (String × Json)) :
    (sortKeysItems d).map Prod.fst = d.map Prod.fst := by
  rw [sortKeysItems_eq_map, List.map_map]
  rfl

/-- Items with distinct keys have one order by their keys. -/
lemma insertionSort_eq_iff {d e : List (String × Json)} (hd : (d.map Prod.fst).Nodup) :
    d.insertionSort keyLe = e.insertionSort keyLe ↔ d.Perm e := by
  constructor
  · intro h
    exact (List.perm_insertionSort keyLe d).symm.trans (h ▸ List.perm_insertionSort keyLe e)
  · intro h
    have hperm : (d.insertionSort keyLe).Perm (e.insertionSort keyLe) :=
      ((List.perm_insertionSort keyLe d).trans h).trans (List.perm_insertionSort keyLe e).symm
    refine List.Perm.eq_of_pairwise (fun p q hp hq hpq hqp => ?_)
      (List.pairwise_insertionSort keyLe d) (List.pairwise_insertionSort keyLe e) hperm
    have hpd : p ∈ d := (List.mem_insertionSort keyLe).mp hp
    have hqd : q ∈ d := h.mem_iff.mpr ((List.mem_insertionSort keyLe).mp hq)
    exact List.inj_on_of_nodup_map hd hpd hqd (le_antisymm hpq hqp)

lemma sortKeysMembers_eq_iff {vs ws : List Json}
    (h : ∀ v ∈ vs, ∀ w ∈ ws, sortKeys v = sortKeys w ↔ same v w = true) :
    sortKeysMembers vs = sortKeysMembers ws ↔ sameMembers vs ws = true := by
  induction vs generalizing ws with
  | nil => cases ws <;> simp [sortKeysMembers, sameMembers]
  | cons v vs ih =>
      cases ws with
      | nil => simp [sortKeysMembers, sameMembers]
      | cons w ws =>
          have htail := ih fun v hv w hw => h v (List.mem_cons_of_mem _ hv) w (List.mem_cons_of_mem _ hw)
          rw [sortKeysMembers, sortKeysMembers, List.cons_eq_cons, sameMembers, Bool.and_eq_true,
            h v List.mem_cons_self w List.mem_cons_self, htail]

/-- **Sorted keys are a normal form** for equality up to the order of items. -/
theorem sortKeys_eq_iff {v w : Json} (hv : All KeysDistinct v) (hw : All KeysDistinct w) :
    sortKeys v = sortKeys w ↔ same v w = true := by
  induction v using Json.rec_members generalizing w with
  | scalar a => cases w <;> simp [sortKeys, same]
  | str s => cases w <;> simp [sortKeys, same]
  | list vs ih =>
      cases w with
      | list ws =>
          rw [All, allMembers_iff] at hv hw
          rw [sortKeys, sortKeys, same, Json.list.injEq]
          exact sortKeysMembers_eq_iff fun v hmem w hmem' =>
            ih v hmem (hv.2 v hmem) (hw.2 w hmem')
      | scalar | str | tuple | mapping => simp [sortKeys, same]
  | tuple vs ih =>
      cases w with
      | tuple ws =>
          rw [All, allMembers_iff] at hv hw
          rw [sortKeys, sortKeys, same, Json.tuple.injEq]
          exact sortKeysMembers_eq_iff fun v hmem w hmem' =>
            ih v hmem (hv.2 v hmem) (hw.2 w hmem')
      | scalar | str | list | mapping => simp [sortKeys, same]
  | mapping d ih =>
      cases w with
      | mapping e =>
          rw [All, allItems_iff] at hv hw
          have hkeys : ((sortKeysItems d).map Prod.fst).Nodup := by
            rw [map_fst_sortKeysItems]
            exact hv.1
          rw [sortKeys, sortKeys, Json.mapping.injEq, insertionSort_eq_iff hkeys,
            sortKeysItems_eq_map, sortKeysItems_eq_map, perm_items_iff sortKeys hv.1 hw.1,
            same_mapping_iff]
          refine and_congr_right' (forall₂_congr fun kv hkv => exists_congr fun w =>
            and_congr_right fun hlookup => ?_)
          have hmem : (kv.1, w) ∈ e := (lookup_eq_some_iff_mem hw.1).mp hlookup
          exact ih kv hkv (hv.2 kv hkv) (hw.2 _ hmem)
      | scalar | str | list | tuple => simp [sortKeys, same]

/-! ### The canonical text -/

/-- What is said of every value in a value is said of its normal form. -/
lemma all_sortKeys_iff {p : Json → Prop} (hlist : ∀ vs ws, p (.list vs) ↔ p (.list ws))
    (htuple : ∀ vs ws, p (.tuple vs) ↔ p (.tuple ws))
    (hmapping : ∀ d e, (d.map Prod.fst).Perm (e.map Prod.fst) → (p (.mapping d) ↔ p (.mapping e)))
    (v : Json) : All p (sortKeys v) ↔ All p v := by
  have hmembers : ∀ vs : List Json, (∀ v ∈ vs, All p (sortKeys v) ↔ All p v) →
      (AllMembers p (sortKeysMembers vs) ↔ AllMembers p vs) := by
    intro vs h
    rw [allMembers_iff, allMembers_iff, sortKeysMembers_eq_map, List.forall_mem_map]
    exact forall₂_congr h
  induction v using Json.rec_members with
  | scalar a | str s => rfl
  | list vs ih => exact and_congr (hlist _ _) (hmembers vs ih)
  | tuple vs ih => exact and_congr (htuple _ _) (hmembers vs ih)
  | mapping d ih =>
      have hperm := List.perm_insertionSort keyLe (sortKeysItems d)
      refine and_congr (hmapping _ _ ?_) ?_
      · rw [← map_fst_sortKeysItems d]
        exact hperm.map Prod.fst
      · simp only [allItems_iff, List.mem_insertionSort, sortKeysItems_eq_map, List.forall_mem_map]
        exact forall₂_congr ih

lemma all_isJson_sortKeys (v : Json) : All IsJson (sortKeys v) ↔ All IsJson v :=
  all_sortKeys_iff (fun _ _ => Iff.rfl) (fun _ _ => Iff.rfl) (fun _ _ h => h.nodup_iff) v

lemma all_intShort_sortKeys (v : Json) : All IntShort (sortKeys v) ↔ All IntShort v :=
  all_sortKeys_iff (fun _ _ => Iff.rfl) (fun _ _ => Iff.rfl) (fun _ _ _ => Iff.rfl) v

/-- **The canonical texts of JSON values are the same just if the values are.** -/
theorem write_sortKeys_eq_iff {pad : List Char} (hpad : ∀ c ∈ pad, c = ' ') {v w : Json}
    (hv : All IsJson v) (hw : All IsJson w) (hv' : All IntShort v) (hw' : All IntShort w) :
    write pad (sortKeys v) = write pad (sortKeys w) ↔ same v w = true := by
  have hv'' := (all_isJson_sortKeys v).mpr hv
  have hw'' := (all_isJson_sortKeys w).mpr hw
  rw [← sortKeys_eq_iff hv.keysDistinct hw.keysDistinct]
  constructor
  · intro h
    have himage := JsonRead.image_eq_of_write_eq hpad hv''.keysDistinct ((all_intShort_sortKeys v).mpr hv')
      hw''.keysDistinct ((all_intShort_sortKeys w).mpr hw') h
    rwa [image_eq_self hv'', image_eq_self hw''] at himage
  · exact congrArg (write pad)

end Json

end GgRelay
