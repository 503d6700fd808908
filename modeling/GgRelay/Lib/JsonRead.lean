import GgRelay.Lib.IntText
import GgRelay.Lib.JsonNumber
import GgRelay.Lib.JsonText

/-!
The reader of JSON texts: `json.loads`, with the limits it has.

* `JsonRead.value` reads one value from the front of a text; its recursion is over the depth that
  the interpreter allows, each container takes one level;
* `JsonRead.loads` reads a whole text; `JsonRead.loads_ne_stuck`: the loop over the members of a
  container never runs out of text;
* `JsonRead.loads_nested`: a text of opening brackets beyond the limit is refused for its depth.
-/

namespace GgRelay.JsonRead

/-- What reading a text raises: the second and third are no decoding errors. -/
inductive LoadError where
  /-- `JSONDecodeError` -/
  | decode
  /-- `RecursionError` -/
  | tooDeep
  /-- the `ValueError` for an integer with too many digits -/
  | tooLong
  /-- the loop below ran out of steps -/
  | stuck
  deriving DecidableEq, Repr

/-- What a reader finds at the front of a text, and the rest. -/
abbrev Reading (α : Type) := Except LoadError (α × List Char)

/-- The blanks of JSON. -/
def isBlank (c : Char) : Bool := c = ' ' || c = '\t' || c = '\n' || c = '\r'

/-- The text after the blanks. -/
def skip (cs : List Char) : List Char := cs.dropWhile isBlank

/-! ### Strings -/

/-- The character an escape stands for. -/
def escapes : List (Char × Char) :=
  [('"', '"'), ('\\', '\\'), ('/', '/'), ('b', Char.ofNat 8), ('f', Char.ofNat 12), ('n', '\n'),
    ('r', '\r'), ('t', '\t')]

/-- Four hexadecimal digits. -/
def unit (cs : List Char) : Option ℕ :=
  if (cs.take 4).length = 4 ∧ (cs.take 4).all isHex then some (unhex ((cs.take 4).map lowerHex))
  else none

/-- The low half of a surrogate pair. -/
def lowHalf : List Char → Option ℕ
  | '\\' :: 'u' :: cs => (unit cs).filter fun n => decide (0xDC00 ≤ n ∧ n < 0xE000)
  | _ => none

/-- A character that is written by its number, and how many more characters of the text it takes; a
half of a pair that stands alone counts as U+FFFD. -/
def numbered (cs : List Char) : Option (Char × ℕ) :=
  (unit cs).map fun n =>
    if 0xD800 ≤ n ∧ n < 0xDC00 then
      match lowHalf (cs.drop 4) with
      | some m => (Char.ofNat (0x10000 + (n - 0xD800) * 1024 + (m - 0xDC00)), 10)
      | none => (Char.ofNat 0xFFFD, 4)
    else if 0xDC00 ≤ n ∧ n < 0xE000 then (Char.ofNat 0xFFFD, 4)
    else (Char.ofNat n, 4)

/-- What follows a backslash: the character it stands for, and how many characters it takes. -/
def escaped : List Char → Option (Char × ℕ)
  | [] => none
  | e :: cs =>
      if e = 'u' then (numbered cs).map fun r => (r.1, r.2 + 1)
      else (escapes.lookup e).map fun d => (d, 1)

/-- A character of a string, by its first character in the text and what follows that one, and how
many more it takes. -/
def charAt (c : Char) (cs : List Char) : Option (Char × ℕ) :=
  if c = '\\' then escaped cs else if c.toNat < 32 then none else some (c, 0)

/-- A string after its opening quote; the number counts the characters that are already read. -/
def stringBody : ℕ → List Char → Option (List Char × List Char)
  | _, [] => none
  | k + 1, _ :: cs => stringBody k cs
  | 0, c :: cs =>
      if c = '"' then some ([], cs)
      else
        match charAt c cs with
        | none => none
        | some (d, k) => (stringBody k cs).map fun r => (d :: r.1, r.2)

/-- A string after its opening quote. -/
def text (cs : List Char) : Reading String :=
  match stringBody 0 cs with
  | some (s, cs) => .ok (String.ofList s, cs)
  | none => .error .decode

/-! ### Values -/

/-- A number without a fraction and an exponent is an integer; others are known by their texts. -/
def Numeral.toJson (m : Numeral) : Except LoadError Json :=
  if m.fraction = [] ∧ m.exponent = [] then
    match IntText.natural m.whole with
    | some n => .ok (.scalar (.int (if m.minus then -(n : ℤ) else n)))
    | none => .error .tooLong
  else .ok (.scalar (.other (String.ofList m.text)))

/-- The words that stand for values. -/
def words : List (List Char × Json) :=
  [("null".toList, .scalar .null), ("true".toList, .scalar (.bool true)),
    ("false".toList, .scalar (.bool false)), ("NaN".toList, .scalar (.other "nan")),
    ("Infinity".toList, .scalar (.other "inf")), ("-Infinity".toList, .scalar (.other "-inf"))]

/-- The word at the front of a text. -/
def word (cs : List Char) : Reading Json :=
  match words.find? fun w => w.1.isPrefixOf cs with
  | some w => .ok (w.2, cs.drop w.1.length)
  | none => .error .decode

/-- A number, or else a word. -/
def atom (cs : List Char) : Reading Json :=
  match numeral cs with
  | some (m, rest) => m.toJson.map fun v => (v, rest)
  | none => word cs

/-- What follows a member: whether another one does, and the rest. -/
def next (close : Char) (cs : List Char) : Reading Bool :=
  match skip cs with
  | [] => .error .decode
  | c :: cs =>
      if c = close then .ok (false, cs) else if c = ',' then .ok (true, skip cs) else .error .decode

section Container

variable {α : Type}

/-- The members of a container, with at most so many steps. -/
def sequence (close : Char) (member : List Char → Reading α) : ℕ → List Char → Reading (List α)
  | 0, _ => .error .stuck
  | n + 1, cs =>
      match member cs with
      | .error e => .error e
      | .ok (a, cs) =>
          match next close cs with
          | .error e => .error e
          | .ok (false, cs) => .ok ([a], cs)
          | .ok (true, cs) =>
              match sequence close member n cs with
              | .error e => .error e
              | .ok (as, cs) => .ok (a :: as, cs)

/-- A container after its opening bracket. -/
def container (close : Char) (member : List Char → Reading α) (cs : List Char) : Reading (List α) :=
  match skip cs with
  | [] => .error .decode
  | c :: cs => if c = close then .ok ([], cs) else sequence close member (cs.length + 2) (c :: cs)

end Container

/-- A key and its value. -/
def item (value : List Char → Reading Json) : List Char → Reading (String × Json)
  | [] => .error .decode
  | c :: cs =>
      if c = '"' then
        match text cs with
        | .error e => .error e
        | .ok (k, cs) =>
            match skip cs with
            | [] => .error .decode
            | c :: cs =>
                if c = ':' then (value (skip cs)).map fun r => ((k, r.1), r.2) else .error .decode
      else .error .decode

/-- Assign a key: it keeps the place of its first assignment. -/
def assign (d : List (String × Json)) (kv : String × Json) : List (String × Json) :=
  if kv.1 ∈ d.map Prod.fst then d.map fun p => if p.1 = kv.1 then kv else p else d ++ [kv]

/-- The mapping with these items, in turn. -/
def mappingOf (kvs : List (String × Json)) : Json := .mapping (kvs.foldl assign [])

/-- The text of an array after its opening bracket. -/
def array (value : List Char → Reading Json) (cs : List Char) : Reading Json :=
  (container ']' value cs).map fun r => (.list r.1, r.2)

/-- The text of a mapping after its opening brace. -/
def object (value : List Char → Reading Json) (cs : List Char) : Reading Json :=
  (container '}' (item value) cs).map fun r => (mappingOf r.1, r.2)

/-- A value, given the reader of the members of a container; without one, containers are too
deep. -/
def valueOver (member : Option (List Char → Reading Json)) : List Char → Reading Json
  | [] => .error .decode
  | c :: cs =>
      if c = '"' then (text cs).map fun r => (.str r.1, r.2)
      else if c = '[' then member.elim (.error .tooDeep) fun value => array value cs
      else if c = '{' then member.elim (.error .tooDeep) fun value => object value cs
      else atom (c :: cs)

/-- The value at the front of a text, with so many levels of containers. -/
def value : ℕ → List Char → Reading Json
  | 0 => valueOver none
  | d + 1 => valueOver (some (value d))

/-- `json.loads(text)`, with so many levels of containers. -/
def loads (depth : ℕ) (cs : List Char) : Except LoadError Json :=
  if cs.head? = some (Char.ofNat 0xFEFF) then .error .decode
  else
    match value depth (skip cs) with
    | .error e => .error e
    | .ok (v, rest) => if skip rest = [] then .ok v else .error .decode

/-! ### A reader advances -/

/-- A reader that takes at least one character and never runs out of steps. -/
structure Advances {α : Type} (read : List Char → Reading α) : Prop where
  ne_stuck : ∀ cs, read cs ≠ .error .stuck
  length_lt : ∀ {cs a rest}, read cs = .ok (a, rest) → rest.length < cs.length

/-- An error that is passed on. -/
lemma error_ne_stuck {α β : Type} {x : Except LoadError α} {e : LoadError}
    (h : x ≠ .error .stuck) (hx : x = .error e) : (.error e : Except LoadError β) ≠ .error .stuck := by
  rintro ⟨⟩
  exact h hx

lemma length_skip_le (cs : List Char) : (skip cs).length ≤ cs.length :=
  (List.dropWhile_suffix _).length_le

lemma stringBody_length {k : ℕ} {cs s rest : List Char} (h : stringBody k cs = some (s, rest)) :
    rest.length < cs.length := by
  induction cs generalizing k s with
  | nil =>
      rw [stringBody.eq_1] at h
      cases h
  | cons c cs ih =>
      rw [List.length_cons]
      cases k with
      | succ k => exact Nat.lt_succ_of_lt (ih h)
      | zero =>
          rw [stringBody] at h
          split_ifs at h with hquote
          · cases h
            exact Nat.lt_succ_self _
          · cases hc : charAt c cs with
            | none =>
                rw [hc] at h
                cases h
            | some r =>
                rw [hc] at h
                obtain ⟨⟨t, rest'⟩, hbody, heq⟩ := Option.map_eq_some_iff.mp h
                cases heq
                exact Nat.lt_succ_of_lt (ih hbody)

lemma text_advances : Advances text where
  ne_stuck cs := by
    rw [text]
    cases stringBody 0 cs <;> simp
  length_lt {cs s rest} h := by
    rw [text] at h
    cases hbody : stringBody 0 cs with
    | none =>
        rw [hbody] at h
        cases h
    | some r =>
        rw [hbody] at h
        cases h
        exact stringBody_length hbody

lemma Numeral.toJson_ne_stuck (m : Numeral) : m.toJson ≠ .error .stuck := by
  rw [Numeral.toJson]
  cases IntText.natural m.whole <;> split_ifs <;> nofun

lemma Advances.map {α β : Type} {read : List Char → Reading α} (h : Advances read) (f : α → β) :
    Advances fun cs => (read cs).map fun r => (f r.1, r.2) where
  ne_stuck cs := by
    cases hread : read cs with
    | error e =>
        exact error_ne_stuck (h.ne_stuck cs) hread
    | ok r => simp [Except.map]
  length_lt {cs b rest} hread := by
    cases hr : read cs with
    | error e =>
        rw [hr] at hread
        cases hread
    | ok r =>
        rw [hr] at hread
        cases hread
        exact h.length_lt hr

lemma word_advances : Advances word where
  ne_stuck cs := by
    rw [word]
    cases words.find? fun w => w.1.isPrefixOf cs <;> simp
  length_lt {cs v rest} h := by
    rw [word] at h
    cases hfind : words.find? fun w => w.1.isPrefixOf cs with
    | none =>
        rw [hfind] at h
        cases h
    | some w =>
        rw [hfind] at h
        cases h
        have hpos : 0 < w.1.length := by
          have hall : ∀ w ∈ words, 0 < w.1.length := by simp [words]
          exact hall w (List.mem_of_find?_eq_some hfind)
        have hle : w.1.length ≤ cs.length :=
          by
          have hprefix := List.find?_some hfind
          exact (List.isPrefixOf_iff_prefix.mp hprefix).length_le
        rw [List.length_drop]
        omega

lemma atom_advances : Advances atom where
  ne_stuck cs := by
    rw [atom]
    cases numeral cs with
    | none => exact word_advances.ne_stuck cs
    | some r =>
        cases hjson : r.1.toJson with
        | error e =>
            simp only [hjson]
            exact error_ne_stuck r.1.toJson_ne_stuck hjson
        | ok v => simp [hjson, Except.map]
  length_lt {cs v rest} h := by
    rw [atom] at h
    cases hnum : numeral cs with
    | none =>
        rw [hnum] at h
        exact word_advances.length_lt h
    | some r =>
        rw [hnum] at h
        cases hjson : r.1.toJson with
        | error e =>
            simp only [hjson] at h
            cases h
        | ok v =>
            simp only [hjson] at h
            cases h
            exact length_numeral hnum

lemma next_advances (close : Char) : Advances (next close) where
  ne_stuck cs := by
    rw [next]
    cases skip cs with
    | nil => simp
    | cons c cs =>
        simp only
        split_ifs <;> simp
  length_lt {cs more rest} h := by
    have hlen := length_skip_le cs
    rw [next] at h
    cases hskip : skip cs with
    | nil =>
        rw [hskip] at h
        cases h
    | cons c ds =>
        rw [hskip] at h hlen
        rw [List.length_cons] at hlen
        simp only at h
        split_ifs at h
        · cases h
          omega
        · cases h
          have := length_skip_le ds
          omega

section Container

variable {α : Type} {close : Char} {member : List Char → Reading α}

lemma sequence_advances (h : Advances member) {n : ℕ} {cs : List Char} (hn : cs.length < n) :
    sequence close member n cs ≠ .error .stuck ∧
      ∀ as rest, sequence close member n cs = .ok (as, rest) → rest.length < cs.length := by
  induction n generalizing cs with
  | zero => omega
  | succ n ih =>
      rw [sequence]
      cases hmember : member cs with
      | error e =>
          exact ⟨error_ne_stuck (h.ne_stuck cs) hmember, nofun⟩
      | ok r =>
          obtain ⟨a, ds⟩ := r
          have hds := h.length_lt hmember
          simp only
          cases hnext : next close ds with
          | error e =>
              exact ⟨error_ne_stuck ((next_advances close).ne_stuck ds) hnext, nofun⟩
          | ok r =>
              obtain ⟨more, es⟩ := r
              have hes := (next_advances close).length_lt hnext
              cases more with
              | false =>
                  refine ⟨nofun, fun as rest heq => ?_⟩
                  cases heq
                  omega
              | true =>
                  have hfuel : es.length < n := by omega
                  obtain ⟨hstuck, hlength⟩ := ih hfuel
                  simp only
                  cases hrest : sequence close member n es with
                  | error e =>
                      exact ⟨error_ne_stuck hstuck hrest, nofun⟩
                  | ok r =>
                      refine ⟨nofun, fun as rest heq => ?_⟩
                      cases heq
                      have := hlength _ _ hrest
                      omega

lemma container_advances (h : Advances member) : Advances (container close member) where
  ne_stuck cs := by
    rw [container]
    cases skip cs with
    | nil => simp
    | cons c ds =>
        simp only
        split_ifs
        · simp
        · exact (sequence_advances h (by simp)).1
  length_lt {cs as rest} heq := by
    have hlen := length_skip_le cs
    rw [container] at heq
    cases hskip : skip cs with
    | nil =>
        rw [hskip] at heq
        cases heq
    | cons c ds =>
        rw [hskip] at heq hlen
        simp only at heq
        split_ifs at heq
        · cases heq
          exact hlen
        · exact ((sequence_advances h (by simp)).2 _ _ heq).trans_le hlen

end Container

lemma item_advances {value : List Char → Reading Json} (h : Advances value) :
    Advances (item value) where
  ne_stuck cs := by
    cases cs with
    | nil => simp [item]
    | cons c cs =>
        rw [item]
        split_ifs
        · cases htext : text cs with
          | error e =>
              exact error_ne_stuck (text_advances.ne_stuck cs) htext
          | ok r =>
              simp only
              cases skip r.2 with
              | nil => simp
              | cons c ds =>
                  simp only
                  split_ifs
                  · exact (h.map fun v => (r.1, v)).ne_stuck (skip ds)
                  · simp
        · simp
  length_lt {cs kv rest} heq := by
    cases cs with
    | nil => cases heq
    | cons c cs =>
        rw [item] at heq
        split_ifs at heq
        cases htext : text cs with
        | error e =>
            rw [htext] at heq
            cases heq
        | ok r =>
            have hr := text_advances.length_lt htext
            have hlen := length_skip_le r.2
            rw [htext] at heq
            simp only at heq
            cases hskip : skip r.2 with
            | nil =>
                rw [hskip] at heq
                cases heq
            | cons c ds =>
                rw [hskip] at heq hlen
                simp only at heq
                split_ifs at heq
                have hvalue := (h.map fun v => (r.1, v)).length_lt heq
                have := length_skip_le ds
                simp only [List.length_cons] at hlen ⊢
                omega

lemma array_advances {value : List Char → Reading Json} (h : Advances value) :
    Advances (array value) :=
  (container_advances h).map Json.list

lemma object_advances {value : List Char → Reading Json} (h : Advances value) :
    Advances (object value) :=
  (container_advances (item_advances h)).map mappingOf

lemma valueOver_advances {member : Option (List Char → Reading Json)}
    (h : ∀ value ∈ member, Advances value) : Advances (valueOver member) where
  ne_stuck cs := by
    cases cs with
    | nil => simp [valueOver]
    | cons c cs =>
        rw [valueOver]
        split_ifs
        · exact (text_advances.map Json.str).ne_stuck cs
        · cases member with
          | none => simp
          | some value => exact (array_advances (h value rfl)).ne_stuck cs
        · cases member with
          | none => simp
          | some value => exact (object_advances (h value rfl)).ne_stuck cs
        · exact atom_advances.ne_stuck _
  length_lt {cs v rest} heq := by
    cases cs with
    | nil => cases heq
    | cons c cs =>
        rw [valueOver] at heq
        split_ifs at heq
        · exact Nat.lt_succ_of_lt ((text_advances.map Json.str).length_lt heq)
        · cases member with
          | none => cases heq
          | some value =>
              exact Nat.lt_succ_of_lt ((array_advances (h value rfl)).length_lt heq)
        · cases member with
          | none => cases heq
          | some value =>
              exact Nat.lt_succ_of_lt ((object_advances (h value rfl)).length_lt heq)
        · exact atom_advances.length_lt heq

lemma value_advances (d : ℕ) : Advances (value d) := by
  induction d with
  | zero => exact valueOver_advances nofun
  | succ d ih =>
      refine valueOver_advances fun value hvalue => ?_
      cases hvalue
      exact ih

/-- **The loops of the reader never run out of steps.** -/
theorem loads_ne_stuck (d : ℕ) (cs : List Char) : loads d cs ≠ .error .stuck := by
  rw [loads]
  split_ifs
  · simp
  · cases hvalue : value d (skip cs) with
    | error e =>
        exact error_ne_stuck ((value_advances d).ne_stuck _) hvalue
    | ok r =>
        simp only
        split_ifs <;> simp

/-! ### Fewer levels -/

section Levels

variable {α : Type} {close : Char} {read read' : List Char → Reading α}

/-- A reader that does what the other does, or finds the text too deep. -/
def Below (read read' : List Char → Reading α) : Prop :=
  ∀ cs, read cs = read' cs ∨ read cs = .error .tooDeep

lemma Below.sequence (h : Below read read') (n : ℕ) :
    Below (sequence close read n) (sequence close read' n) := by
  induction n with
  | zero => exact fun cs => Or.inl rfl
  | succ n ih =>
      intro cs
      rw [JsonRead.sequence, JsonRead.sequence]
      rcases h cs with heq | heq
      · rw [heq]
        cases read' cs with
        | error e => exact Or.inl rfl
        | ok q =>
            simp only
            cases next close q.2 with
            | error e => exact Or.inl rfl
            | ok q' =>
                obtain ⟨more, ds⟩ := q'
                cases more with
                | false => exact Or.inl rfl
                | true =>
                    simp only
                    rcases ih ds with heq | heq
                    · rw [heq]
                      exact Or.inl rfl
                    · rw [heq]
                      exact Or.inr rfl
      · rw [heq]
        exact Or.inr rfl

lemma Below.container (h : Below read read') :
    Below (container close read) (container close read') := by
  intro cs
  rw [JsonRead.container, JsonRead.container]
  cases skip cs with
  | nil => exact Or.inl rfl
  | cons c ds =>
      simp only
      split_ifs
      · exact Or.inl rfl
      · exact h.sequence _ _

lemma Below.map {β : Type} (h : Below read read') (f : α → β) :
    Below (fun cs => (read cs).map fun r => (f r.1, r.2))
      fun cs => (read' cs).map fun r => (f r.1, r.2) := by
  intro cs
  simp only
  rcases h cs with heq | heq
  · rw [heq]
    exact Or.inl rfl
  · rw [heq]
    exact Or.inr rfl

lemma Below.item {value value' : List Char → Reading Json} (h : Below value value') :
    Below (item value) (item value') := by
  intro cs
  cases cs with
  | nil => exact Or.inl rfl
  | cons c cs =>
      rw [JsonRead.item, JsonRead.item]
      split_ifs
      · cases text cs with
        | error e => exact Or.inl rfl
        | ok q =>
            simp only
            cases skip q.2 with
            | nil => exact Or.inl rfl
            | cons c ds =>
                simp only
                split_ifs
                · exact h.map (fun v => (q.1, v)) _
                · exact Or.inl rfl
      · exact Or.inl rfl

end Levels

lemma below_succ (d : ℕ) : Below (value d) (value (d + 1)) := by
  induction d with
  | zero =>
      intro cs
      cases cs with
      | nil => exact Or.inl rfl
      | cons c cs =>
          show valueOver none (c :: cs) = valueOver (some (value 0)) (c :: cs) ∨
            valueOver none (c :: cs) = _
          rw [valueOver, valueOver]
          split_ifs
          · exact Or.inl rfl
          · exact Or.inr rfl
          · exact Or.inr rfl
          · exact Or.inl rfl
  | succ d ih =>
      intro cs
      cases cs with
      | nil => exact Or.inl rfl
      | cons c cs =>
          show valueOver (some (value d)) (c :: cs) = valueOver (some (value (d + 1))) (c :: cs) ∨
            valueOver (some (value d)) (c :: cs) = _
          rw [valueOver, valueOver]
          split_ifs
          · exact Or.inl rfl
          · exact ih.container.map Json.list cs
          · exact ih.item.container.map mappingOf cs
          · exact Or.inl rfl

/-- **With fewer levels the reader does the same, or finds the text too deep.** -/
theorem loads_below {d d' : ℕ} (h : d ≤ d') (cs : List Char) :
    loads d cs = loads d' cs ∨ loads d cs = .error .tooDeep := by
  have hbelow : Below (value d) (value d') := by
    induction h with
    | refl => exact fun _ => Or.inl rfl
    | @step n _ ih =>
        intro cs
        rcases ih cs with heq | heq
        · rw [heq]
          exact below_succ n cs
        · exact Or.inr heq
  rw [loads, loads]
  split_ifs
  · exact Or.inl rfl
  · rcases hbelow (skip cs) with heq | heq
    · rw [heq]
      exact Or.inl rfl
    · rw [heq]
      exact Or.inr rfl

/-- With more levels the reader reads the same values. -/
theorem loads_mono {d d' : ℕ} (h : d ≤ d') {cs : List Char} {v : Json} (hv : loads d cs = .ok v) :
    loads d' cs = .ok v := by
  rcases loads_below h cs with heq | heq
  · rwa [heq] at hv
  · rw [heq] at hv
    cases hv

/-! ### Texts that are too deep -/

lemma value_nested (d n : ℕ) (rest : List Char) :
    value d (List.replicate (d + 1 + n) '[' ++ rest) = .error .tooDeep := by
  induction d generalizing n with
  | zero =>
      rw [Nat.zero_add, Nat.add_comm, List.replicate_succ]
      rfl
  | succ d ih =>
      have hcons : List.replicate (d + 1 + 1 + n) '[' ++ rest
          = '[' :: (List.replicate (d + 1 + n) '[' ++ rest) := by
        rw [show d + 1 + 1 + n = d + 1 + n + 1 by omega, List.replicate_succ]
        rfl
      have hinner : List.replicate (d + 1 + n) '[' ++ rest
          = '[' :: (List.replicate (d + n) '[' ++ rest) := by
        rw [show d + 1 + n = d + n + 1 by omega, List.replicate_succ]
        rfl
      have hsequence : container ']' (value d) (List.replicate (d + 1 + n) '[' ++ rest)
          = .error .tooDeep := by
        have hmember := ih n
        rw [hinner] at hmember ⊢
        rw [container, show skip ('[' :: (List.replicate (d + n) '[' ++ rest))
          = '[' :: (List.replicate (d + n) '[' ++ rest) from rfl]
        simp only
        rw [if_neg (by decide), sequence, hmember]
      rw [hcons, value, valueOver, if_neg (by decide), if_pos rfl, Option.elim_some, array, hsequence]
      rfl

/-- **Opening brackets beyond the limit exhaust it**, whatever follows them. -/
theorem loads_nested (d : ℕ) (rest : List Char) :
    loads d (List.replicate (d + 1) '[' ++ rest) = .error .tooDeep := by
  have hcons : List.replicate (d + 1) '[' ++ rest = '[' :: (List.replicate d '[' ++ rest) := by
    rw [List.replicate_succ]
    rfl
  have hskip : skip (List.replicate (d + 1) '[' ++ rest) = List.replicate (d + 1) '[' ++ rest := by
    rw [hcons]
    rfl
  have hhead : (List.replicate (d + 1) '[' ++ rest).head? ≠ some (Char.ofNat 0xFEFF) := by
    rw [hcons, List.head?_cons, Ne, Option.some_inj]
    decide
  rw [loads, if_neg hhead, hskip]
  have hvalue := value_nested d 0 rest
  rw [Nat.add_zero] at hvalue
  rw [hvalue]

end GgRelay.JsonRead
