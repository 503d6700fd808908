import GgRelay.Lib.JsonRead

/-!
The writer of JSON texts, `json.dumps(…, default=str)`.

* `Json.All` says something of every value in a value, `Json.depth` counts the levels of containers;
* `Json.write` is the text with a given blank after each separator, `Json.dumpsWithin` the text within
  the limits of the writer;
* `Json.image` is the value as a reader gets it: tuples are arrays, other objects are strings.
-/

namespace GgRelay

open JsonRead

namespace Json

/-! ### Values, recursively -/

mutual

/-- Every value in it, itself included, is of a kind. -/
def All (p : Json → Prop) : Json → Prop
  | .scalar a => p (.scalar a)
  | .str s => p (.str s)
  | .list vs => p (.list vs) ∧ AllMembers p vs
  | .tuple vs => p (.tuple vs) ∧ AllMembers p vs
  | .mapping d => p (.mapping d) ∧ AllItems p d

def AllMembers (p : Json → Prop) : List Json → Prop
  | [] => True
  | v :: vs => All p v ∧ AllMembers p vs

def AllItems (p : Json → Prop) : List (String × Json) → Prop
  | [] => True
  | (_, v) :: d => All p v ∧ AllItems p d

end

mutual

/-- The levels of containers, with so many for a scalar. -/
def levels (leaf : Scalar → ℕ) : Json → ℕ
  | .scalar a => leaf a
  | .str _ => 0
  | .list vs | .tuple vs => levelsMembers leaf vs + 1
  | .mapping d => levelsItems leaf d + 1

def levelsMembers (leaf : Scalar → ℕ) : List Json → ℕ
  | [] => 0
  | v :: vs => max (levels leaf v) (levelsMembers leaf vs)

def levelsItems (leaf : Scalar → ℕ) : List (String × Json) → ℕ
  | [] => 0
  | (_, v) :: d => max (levels leaf v) (levelsItems leaf d)

end

/-- The levels of containers. -/
def depth (v : Json) : ℕ := levels (fun _ => 0) v

variable {p : Json → Prop}

lemma allMembers_iff (vs : List Json) : AllMembers p vs ↔ ∀ v ∈ vs, All p v := by
  induction vs with
  | nil => simp [AllMembers]
  | cons v vs ih => rw [AllMembers, ih, List.forall_mem_cons]

lemma allItems_iff (d : List (String × Json)) : AllItems p d ↔ ∀ kv ∈ d, All p kv.2 := by
  induction d with
  | nil => simp [AllItems]
  | cons kv d ih => rw [AllItems, ih, List.forall_mem_cons]

lemma levelsMembers_le_iff {leaf : Scalar → ℕ} {vs : List Json} {n : ℕ} :
    levelsMembers leaf vs ≤ n ↔ ∀ v ∈ vs, levels leaf v ≤ n := by
  induction vs with
  | nil => simp [levelsMembers]
  | cons v vs ih => rw [levelsMembers, max_le_iff, ih, List.forall_mem_cons]

lemma levelsItems_le_iff {leaf : Scalar → ℕ} {d : List (String × Json)} {n : ℕ} :
    levelsItems leaf d ≤ n ↔ ∀ kv ∈ d, levels leaf kv.2 ≤ n := by
  induction d with
  | nil => simp [levelsItems]
  | cons kv d ih => rw [levelsItems, max_le_iff, ih, List.forall_mem_cons]

/-- The keys of a mapping are distinct. -/
def KeysDistinct : Json → Prop
  | .mapping d => (d.map Prod.fst).Nodup
  | _ => True

/-- An integer has no more digits than the interpreter writes and reads. -/
def IntShort : Json → Prop
  | .scalar (.int n) => (Nat.toDigits 10 n.natAbs).length ≤ IntText.maxDigits
  | _ => True

instance : DecidablePred IntShort
  | .scalar (.int _) => inferInstanceAs (Decidable (_ ≤ _))
  | .scalar .null | .scalar (.bool _) | .scalar (.other _) | .str _ | .list _ | .tuple _
  | .mapping _ => inferInstanceAs (Decidable True)

mutual

instance decidableAll [DecidablePred p] : (v : Json) → Decidable (All p v)
  | .scalar a => inferInstanceAs (Decidable (p (.scalar a)))
  | .str s => inferInstanceAs (Decidable (p (.str s)))
  | .list vs => @instDecidableAnd _ _ (inferInstanceAs (Decidable (p _))) (decidableAllMembers vs)
  | .tuple vs => @instDecidableAnd _ _ (inferInstanceAs (Decidable (p _))) (decidableAllMembers vs)
  | .mapping d => @instDecidableAnd _ _ (inferInstanceAs (Decidable (p _))) (decidableAllItems d)

instance decidableAllMembers [DecidablePred p] : (vs : List Json) → Decidable (AllMembers p vs)
  | [] => isTrue trivial
  | v :: vs => @instDecidableAnd _ _ (decidableAll v) (decidableAllMembers vs)

instance decidableAllItems [DecidablePred p] :
    (d : List (String × Json)) → Decidable (AllItems p d)
  | [] => isTrue trivial
  | (_, v) :: d => @instDecidableAnd _ _ (decidableAll v) (decidableAllItems d)

end

/-! ### The writer -/

/-- A text that is the text of a finite float. -/
def isFloatText (r : String) : Bool :=
  match numeral r.toList with
  | some (m, []) => !(m.fraction = [] && m.exponent = [])
  | _ => false

/-- An object with this representation is a float. -/
def isFloat (r : String) : Bool := r = "nan" || r = "inf" || r = "-inf" || isFloatText r

/-- The text of a scalar; an object that is none of JSON's is written by `default=str`. -/
def writeScalar : Scalar → List Char
  | .other r =>
      if r = "nan" then "NaN".toList
      else if r = "inf" then "Infinity".toList
      else if r = "-inf" then "-Infinity".toList
      else if isFloatText r then r.toList
      else jsonStr r
  | a => scalarText a

section Write

variable (pad : List Char)

mutual

/-- The text of a value; `pad` stands after each comma and colon. -/
def write : Json → List Char
  | .scalar a => writeScalar a
  | .str s => jsonStr s
  | .list vs | .tuple vs => '[' :: (',' :: pad).intercalate (writeMembers vs) ++ [']']
  | .mapping d => '{' :: (',' :: pad).intercalate (writeItems d) ++ ['}']

/-- The texts of the members of an array. -/
def writeMembers : List Json → List (List Char)
  | [] => []
  | v :: vs => write v :: writeMembers vs

/-- The texts of the items of a mapping. -/
def writeItems : List (String × Json) → List (List Char)
  | [] => []
  | (k, v) :: d => (jsonStr k ++ ':' :: pad ++ write v) :: writeItems d

end

/-- The levels the writer takes: `default` takes one. -/
def writeLevels (v : Json) : ℕ :=
  levels (fun a => match a with | .other r => if isFloat r then 0 else 1 | _ => 0) v

/-- `json.dumps(v, default=str)`, with so many levels; `none` is a `RecursionError` or the
`ValueError` for an integer with too many digits. -/
def dumpsWithin (limit : ℕ) (v : Json) : Option (List Char) :=
  if writeLevels v ≤ limit ∧ All IntShort v then some (write pad v) else none

end Write

mutual

/-- The value as a reader gets it. -/
def image : Json → Json
  | .scalar (.other r) => if isFloat r then .scalar (.other r) else .str r
  | .scalar a => .scalar a
  | .str s => .str s
  | .list vs | .tuple vs => .list (imageMembers vs)
  | .mapping d => .mapping (imageItems d)

def imageMembers : List Json → List Json
  | [] => []
  | v :: vs => image v :: imageMembers vs

def imageItems : List (String × Json) → List (String × Json)
  | [] => []
  | (k, v) :: d => (k, image v) :: imageItems d

end

section Unfold

variable {pad : List Char}

lemma writeMembers_eq_map (vs : List Json) : writeMembers pad vs = vs.map (write pad) := by
  induction vs with
  | nil => rfl
  | cons v vs ih => rw [writeMembers, ih, List.map_cons]

/-- The text of an item. -/
def writeItem (pad : List Char) (kv : String × Json) : List Char :=
  jsonStr kv.1 ++ ':' :: pad ++ write pad kv.2

lemma writeItems_eq_map (d : List (String × Json)) : writeItems pad d = d.map (writeItem pad) := by
  induction d with
  | nil => rfl
  | cons kv d ih => rw [writeItems, ih, List.map_cons, writeItem]

lemma imageMembers_eq_map (vs : List Json) : imageMembers vs = vs.map image := by
  induction vs with
  | nil => rfl
  | cons v vs ih => rw [imageMembers, ih, List.map_cons]

lemma imageItems_eq_map (d : List (String × Json)) :
    imageItems d = d.map fun kv => (kv.1, image kv.2) := by
  induction d with
  | nil => rfl
  | cons kv d ih => rw [imageItems, ih, List.map_cons]

end Unfold

/-! ### JSON values -/

/-- A value that JSON has: no tuple, no other object, a finite float. -/
def IsJson : Json → Prop
  | .tuple _ => False
  | .scalar (.other r) => isFloatText r = true
  | .mapping d => (d.map Prod.fst).Nodup
  | _ => True

instance : DecidablePred IsJson
  | .scalar (.other _) => inferInstanceAs (Decidable (_ = true))
  | .tuple _ => inferInstanceAs (Decidable False)
  | .mapping d => inferInstanceAs (Decidable (d.map Prod.fst).Nodup)
  | .scalar .null | .scalar (.bool _) | .scalar (.int _) | .str _ | .list _ =>
      inferInstanceAs (Decidable True)

lemma All.imp {p q : Json → Prop} (h : ∀ v, p v → q v) {v : Json} (hv : All p v) : All q v := by
  induction v using Json.rec_members with
  | scalar a => exact h _ hv
  | str s => exact h _ hv
  | list vs ih | tuple vs ih =>
      rw [All, allMembers_iff] at hv ⊢
      exact ⟨h _ hv.1, fun v hmem => ih v hmem (hv.2 v hmem)⟩
  | mapping d ih =>
      rw [All, allItems_iff] at hv ⊢
      exact ⟨h _ hv.1, fun kv hmem => ih kv hmem (hv.2 kv hmem)⟩

lemma All.keysDistinct {v : Json} (h : All IsJson v) : All KeysDistinct v :=
  h.imp fun v hv => by cases v <;> first | exact hv | trivial

lemma isFloat_of_isFloatText {r : String} (h : isFloatText r = true) : isFloat r = true := by
  simp [isFloat, h]

/-- A JSON value is its own image. -/
lemma image_eq_self {v : Json} (h : All IsJson v) : image v = v := by
  induction v using Json.rec_members with
  | scalar a =>
      cases a with
      | other r => rw [image, if_pos (isFloat_of_isFloatText h)]
      | null | bool b | int n => rfl
  | str s => rfl
  | list vs ih =>
      rw [All, allMembers_iff] at h
      rw [image, imageMembers_eq_map, List.map_congr_left fun v hv => ih v hv (h.2 v hv),
        List.map_id']
  | tuple vs => exact h.1.elim
  | mapping d ih =>
      rw [All, allItems_iff] at h
      have hitem : ∀ kv ∈ d, (kv.1, image kv.2) = kv := fun kv hkv => by rw [ih kv hkv (h.2 kv hkv)]
      rw [image, imageItems_eq_map, List.map_congr_left hitem, List.map_id']

/-- A JSON value needs no default. -/
lemma writeLevels_eq_depth {v : Json} (h : All IsJson v) : writeLevels v = depth v := by
  have hlevels : ∀ {n : ℕ} {v : Json}, All IsJson v → (writeLevels v ≤ n ↔ depth v ≤ n) := by
    intro n v h
    induction v using Json.rec_members generalizing n with
    | scalar a =>
        cases a with
        | other r => simp [writeLevels, depth, levels, isFloat_of_isFloatText h]
        | null | bool b | int n => rfl
    | str s => rfl
    | list vs ih | tuple vs ih =>
        rw [All, allMembers_iff] at h
        rw [writeLevels, depth, levels, levels]
        cases n with
        | zero => simp
        | succ n =>
            rw [Nat.add_le_add_iff_right, Nat.add_le_add_iff_right, levelsMembers_le_iff,
              levelsMembers_le_iff]
            exact forall₂_congr fun v hv => ih v hv (h.2 v hv)
    | mapping d ih =>
        rw [All, allItems_iff] at h
        rw [writeLevels, depth, levels, levels]
        cases n with
        | zero => simp
        | succ n =>
            rw [Nat.add_le_add_iff_right, Nat.add_le_add_iff_right, levelsItems_le_iff,
              levelsItems_le_iff]
            exact forall₂_congr fun kv hkv => ih kv hkv (h.2 kv hkv)
  exact le_antisymm ((hlevels h).mpr le_rfl) ((hlevels h).mp le_rfl)

end Json

end GgRelay
