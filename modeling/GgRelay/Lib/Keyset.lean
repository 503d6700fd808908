import GgRelay.Lib.System
import Mathlib.Data.List.Sort

/-!
Keyset pagination: pages of the rows that match, newest first, each page after the last row of the
page before, and one row more than the page to see whether there is another.

* `descending` is the whole listing, `page` a page of it;
* `Walk` is a client that follows the cursors of a listing while rows are inserted, `Walk.Sound`
  the invariant of its runs;
* `Walk.exact`: at any moment the client has an initial segment of the listing of the rows that
  were there at its first fetch, and all of it when it is done, after a bounded number of fetches.
-/

namespace GgRelay.Keyset

universe u v w z

variable {ρ : Type u} {κ : Type v} [LinearOrder κ] (key : ρ → κ)

/-- `ORDER BY key DESC`. -/
def descending (l : List ρ) : List ρ := l.insertionSort fun x y => key y ≤ key x

/-- The row is after the bound in a descending listing. -/
def below (bound : Option ρ) (x : ρ) : Bool := bound.all fun b => key x < key b

/-- The rows of a page, and the last of them if there are more. -/
def page (sel : ρ → Bool) (limit : ℕ) (bound : Option ρ) (rows : List ρ) : List ρ × Option ρ :=
  let fetched := (descending key (rows.filter fun x => sel x && below key bound x)).take (limit + 1)
  (fetched.take limit, if limit < fetched.length then (fetched.take limit).getLast? else none)

variable {key} {sel : ρ → Bool} {limit : ℕ} {l : List ρ}

lemma descending_perm (l : List ρ) : (descending key l).Perm l := List.perm_insertionSort _ l

lemma mem_descending {x : ρ} : x ∈ descending key l ↔ x ∈ l := (descending_perm l).mem_iff

lemma length_descending : (descending key l).length = l.length := (descending_perm l).length_eq

/-- Rows with different keys come strictly one after the other. -/
lemma descending_pairwise (h : (l.map key).Nodup) :
    (descending key l).Pairwise fun x y => key y < key x := by
  have : Std.Total fun x y : ρ => key y ≤ key x := ⟨fun x y => le_total _ _⟩
  have : IsTrans ρ fun x y => key y ≤ key x := ⟨fun _ _ _ hxy hyz => hyz.trans hxy⟩
  have hle : (descending key l).Pairwise fun x y => key y ≤ key x :=
    List.pairwise_insertionSort _ _
  have hne : (descending key l).Pairwise fun x y => key x ≠ key y :=
    (List.pairwise_map.mp h).perm (descending_perm l).symm fun h => h.symm
  exact (hle.and hne).imp fun h => lt_of_le_of_ne h.1 (Ne.symm h.2)

/-- A strictly descending list is the listing of its rows. -/
lemma eq_descending {m : List ρ} (hm : m.Pairwise fun x y => key y < key x) (h : m.Perm l) :
    m = descending key l := by
  have hl : (l.map key).Nodup := by
    refine ((h.map key).nodup_iff).mp (List.pairwise_map.mpr (hm.imp fun hlt => ?_))
    exact hlt.ne'
  refine List.Perm.eq_of_pairwise (fun x y _ _ hxy hyx => ?_) hm (descending_pairwise hl)
    (h.trans (descending_perm l).symm)
  exact absurd (hxy.trans hyx) (lt_irrefl _)

/-- A part of the rows is listed as the same part of the listing. -/
lemma descending_filter (h : (l.map key).Nodup) (p : ρ → Bool) :
    descending key (l.filter p) = (descending key l).filter p :=
  (eq_descending ((descending_pairwise h).sublist List.filter_sublist)
    ((descending_perm l).filter p)).symm

/-- What is below the last row of an initial segment is the rest. -/
lemma filter_below_drop {m : List ρ} (hm : m.Pairwise fun x y => key y < key x) {k : ℕ} {z : ρ}
    (hz : (m.take k).getLast? = some z) : m.filter (fun x => key x < key z) = m.drop k := by
  obtain ⟨r, hr⟩ : ∃ r, m.take k = r ++ [z] := by
    obtain ⟨r, hr⟩ := List.getLast?_eq_some_iff.mp hz
    exact ⟨r, hr⟩
  have hsplit : m = (r ++ [z]) ++ m.drop k := by rw [← hr, List.take_append_drop]
  have hm' := hm
  rw [hsplit] at hm'
  obtain ⟨hfirst, -, hcross⟩ := List.pairwise_append.mp hm'
  calc m.filter (fun x => key x < key z)
      = (r ++ [z]).filter (fun x => key x < key z)
          ++ (m.drop k).filter (fun x => key x < key z) := by
        conv_lhs => rw [hsplit]
        exact List.filter_append ..
    _ = [] ++ m.drop k := by
        congr 1
        · refine List.filter_eq_nil_iff.mpr fun x hx => ?_
          rcases List.mem_append.mp hx with hx | hx
          · have hlt := (List.pairwise_append.mp hfirst).2.2 x hx z (by simp)
            simpa using hlt.le
          · simp [List.mem_singleton.mp hx]
        · refine List.filter_eq_self.mpr fun x hx => ?_
          simpa using hcross z (by simp) x hx
    _ = m.drop k := List.nil_append _

/-- The first row below a bound is on its page. -/
lemma mem_page_of_max {rows : List ρ} {r b : ρ} (hrows : (rows.map key).Nodup) (hlimit : 0 < limit)
    (hr : r ∈ rows) (hsel : sel r = true) (hb : key r < key b)
    (hmax : ∀ x ∈ rows, key x < key b → key x ≤ key r) :
    r ∈ (page key sel limit (some b) rows).1 := by
  have hmem : r ∈ descending key (rows.filter fun x => sel x && below key (some b) x) := by
    rw [mem_descending, List.mem_filter]
    simp [hr, hsel, below, hb]
  have hpairwise := descending_pairwise
    (hrows.sublist ((List.filter_sublist (p := fun x => sel x && below key (some b) x)).map key))
  rw [page]
  cases hlist : descending key (rows.filter fun x => sel x && below key (some b) x) with
  | nil => simp [hlist] at hmem
  | cons x l =>
      rw [hlist] at hmem hpairwise
      -- it is the first one
      have hx : r = x := by
        refine (List.mem_cons.mp hmem).resolve_right fun hl => ?_
        have hlt := List.rel_of_pairwise_cons hpairwise hl
        have hxmem : x ∈ descending key (rows.filter fun x => sel x && below key (some b) x) :=
          hlist ▸ List.mem_cons_self
        obtain ⟨hxrows, hxb⟩ := List.mem_filter.mp (mem_descending.mp hxmem)
        have hxb' : key x < key b := by
          rw [Bool.and_eq_true] at hxb
          simpa [below] using hxb.2
        exact absurd (hmax x hxrows hxb') hlt.not_ge
      subst hx
      obtain ⟨n, rfl⟩ := Nat.exists_eq_succ_of_ne_zero hlimit.ne'
      simp

/-! ### A client that follows the cursors -/

/-- Where the client is. -/
inductive Phase (C : Type w) (E : Type z) where
  | start
  | more (c : C)
  | done
  | failed (e : E)

/-- The table, and a client that reads it page by page. -/
structure Walk (ρ : Type u) (C : Type w) (E : Type z) where
  rows : List ρ
  /-- what the client was given -/
  got : List ρ
  phase : Phase C E
  /-- history: the rows at the first fetch -/
  existing : List ρ
  /-- history: the number of fetches -/
  fetches : ℕ

/-- What happens to a walk. -/
inductive Label (ρ : Type u) where
  /-- the next page is fetched -/
  | fetch
  /-- a row is inserted -/
  | insert (x : ρ)

namespace Walk

variable {C : Type w} {E : Type z} (key) (list : List ρ → Option C → Except E (List ρ × Option C))

/-- Fetch a page. -/
def fetch (s : Walk ρ C E) (after : Option C) : Walk ρ C E :=
  match list s.rows after with
  | .ok (rows, next) =>
      { s with
        got := s.got ++ rows
        phase := match next with
          | some c => .more c
          | none => .done
        fetches := s.fetches + 1 }
  | .error e => { s with phase := .failed e, fetches := s.fetches + 1 }

/-- One step: a fetch with the last cursor, or an insert of a row with a new key above the first
row the client was given. -/
def step (s : Walk ρ C E) : Label ρ → Option (Walk ρ C E)
  | .fetch =>
      match s.phase with
      | .start => some (fetch list { s with existing := s.rows } none)
      | .more c => some (fetch list s (some c))
      | .done | .failed _ => none
  | .insert x =>
      if key x ∉ s.rows.map key ∧ ∀ y ∈ s.got.head?, key y < key x then
        some { s with rows := x :: s.rows }
      else none

/-- Any table, and a client that has not started. -/
def init (s : Walk ρ C E) : Prop :=
  (s.rows.map key).Nodup ∧ s.got = [] ∧ (s.phase matches .start) ∧ s.existing = [] ∧ s.fetches = 0

/-- The walks through a listing. -/
def system : System (Walk ρ C E) (Label ρ) where
  init := init key
  step := step key list

/-- The rows the client is to get. -/
def wanted (sel : ρ → Bool) (s : Walk ρ C E) : List ρ := descending key (s.existing.filter sel)

/-- **What it means that a walk is exact.** -/
structure Exact (sel : ρ → Bool) (limit : ℕ) (s : Walk ρ C E) : Prop where
  /-- no cursor is refused -/
  accepted : ∀ e, s.phase ≠ .failed e
  /-- the client can go on until it is done -/
  goes_on : s.phase ≠ .done → ∃ t, step key list s .fetch = some t
  /-- it is done after so many fetches -/
  bounded : s.fetches * limit ≤ (s.existing.filter sel).length + limit
  /-- it has the first rows of the listing, none skipped and none repeated -/
  segment : s.got = (wanted key sel s).take (s.fetches * limit)
  /-- it has them in descending order -/
  descends : s.got.Pairwise fun x y => key y < key x
  /-- once it is done it has every row that matches -/
  complete : s.phase = .done → ∀ x, x ∈ s.got ↔ x ∈ s.existing ∧ sel x = true

/-- The invariant of the walks through a listing whose cursors are made by `cur`. -/
structure Sound (sel : ρ → Bool) (limit : ℕ) (cur : ρ → C) (s : Walk ρ C E) : Prop where
  nodup : (s.rows.map key).Nodup
  existing_nodup : (s.existing.map key).Nodup
  grown : s.phase ≠ .start → ∃ new, s.rows = new ++ s.existing ∧
    ∀ x ∈ new, ∀ y ∈ s.got.head?, key y < key x
  accepted : ∀ e, s.phase ≠ .failed e
  segment : s.got = (wanted key sel s).take (s.fetches * limit)
  start : s.phase = .start → s.fetches = 0 ∧ s.existing = []
  more : ∀ c, s.phase = .more c → s.fetches * limit < (wanted key sel s).length ∧
    ∃ z, s.got.getLast? = some z ∧ c = cur z
  done : s.phase = .done → s.got = wanted key sel s ∧
    s.fetches * limit ≤ (wanted key sel s).length + limit

variable {key list} {cur : ρ → C} {s t : Walk ρ C E}

lemma init_sound (h : init key s) : Sound key sel limit cur s := by
  obtain ⟨hrows, hgot, hphase, hexisting, hfetches⟩ := h
  cases hp : s.phase with
  | start =>
      refine ⟨hrows, by simp [hexisting], fun h => absurd hp h, ?_, ?_, ?_, ?_, ?_⟩
      · exact fun e he => nomatch hp ▸ he
      · rw [hgot, hfetches, Nat.zero_mul, List.take_zero]
      · exact fun _ => ⟨hfetches, hexisting⟩
      · exact fun c hc => nomatch hp ▸ hc
      · exact fun hd => nomatch hp ▸ hd
  | more c => simp [hp] at hphase
  | done => simp [hp] at hphase
  | failed e => simp [hp] at hphase

/-- A page, when what is left of the listing is known. -/
lemma page_eq {rows rest : List ρ} {bound : Option ρ}
    (h : descending key (rows.filter fun x => sel x && below key bound x) = rest) :
    page key sel limit bound rows = (rest.take limit,
      if limit < rest.length then (rest.take limit).getLast? else none) := by
  have htake : (rest.take (limit + 1)).take limit = rest.take limit := by
    rw [List.take_take, Nat.min_eq_left (Nat.le_succ limit)]
  have hlength : limit < (rest.take (limit + 1)).length ↔ limit < rest.length := by
    rw [List.length_take]
    omega
  simp only [page, h, htake, hlength]

/-- What is left of the listing, for a client that has its first rows. -/
lemma rest_eq {new : List ρ} {k : ℕ} {y z : ρ} (hnodup : (s.existing.map key).Nodup)
    (hrows : s.rows = new ++ s.existing) (hnew : ∀ x ∈ new, key y < key x)
    (hgot : s.got = (wanted key sel s).take k) (hy : s.got.head? = some y)
    (hz : s.got.getLast? = some z) :
    descending key (s.rows.filter fun x => sel x && below key (some z) x)
      = (wanted key sel s).drop k := by
  have hwanted : (wanted key sel s).Pairwise fun x y => key y < key x :=
    descending_pairwise ((hnodup).sublist (List.filter_sublist.map key))
  have hzy : key z ≤ key y := by
    have hgot' : s.got.Pairwise fun x y => key y < key x := hgot ▸ hwanted.sublist
      (List.take_sublist _ _)
    obtain ⟨r, hr⟩ := List.head?_eq_some_iff.mp hy
    have hmem : z ∈ s.got := List.mem_of_getLast? hz
    rw [hr] at hgot' hmem
    rcases List.mem_cons.mp hmem with rfl | hmem
    · exact le_refl _
    · exact (List.rel_of_pairwise_cons hgot' hmem).le
  -- the new rows are above what the client has
  have hfresh : new.filter (fun x => sel x && below key (some z) x) = [] := by
    refine List.filter_eq_nil_iff.mpr fun x hx => ?_
    have hlt : key z < key x := hzy.trans_lt (hnew x hx)
    simp [below, hlt.le]
  calc descending key (s.rows.filter fun x => sel x && below key (some z) x)
      = descending key ((s.existing.filter sel).filter fun x => key x < key z) := by
        rw [hrows, List.filter_append, hfresh, List.nil_append, List.filter_filter]
        simp only [below, Option.all_some, Bool.and_comm]
    _ = (wanted key sel s).filter (fun x => key x < key z) :=
        descending_filter (hnodup.sublist (List.filter_sublist.map key)) _
    _ = (wanted key sel s).drop k := filter_below_drop hwanted (hgot ▸ hz)

/-- A fetch goes on where the client is. -/
lemma fetch_sound {after : Option C} {bound : Option ρ} {new : List ρ} {n : ℕ} (hlimit : 0 < limit)
    (hlist : list s.rows after = .ok ((page key sel limit bound s.rows).1,
      (page key sel limit bound s.rows).2.map cur))
    (hnodup : (s.rows.map key).Nodup) (hexisting : (s.existing.map key).Nodup)
    (hrows : s.rows = new ++ s.existing)
    (hnew : new = [] ∨ s.got ≠ [] ∧ ∀ x ∈ new, ∀ y ∈ s.got.head?, key y < key x)
    (hgot : s.got = (wanted key sel s).take (s.fetches * limit)) (hn : n = s.fetches * limit)
    (hle : n ≤ (wanted key sel s).length)
    (hrest : descending key (s.rows.filter fun x => sel x && below key bound x)
      = (wanted key sel s).drop n) :
    Sound key sel limit cur (fetch list s after) := by
  have hsucc : (s.fetches + 1) * limit = n + limit := by rw [hn, Nat.succ_mul]
  have hlen : ((wanted key sel s).drop n).length = (wanted key sel s).length - n :=
    List.length_drop
  have happend : s.got ++ ((wanted key sel s).drop n).take limit
      = (wanted key sel s).take (n + limit) := by
    rw [hgot, ← hn, ← List.take_add]
  have hhead : ∀ x ∈ new, ∀ y ∈ (s.got ++ ((wanted key sel s).drop n).take limit).head?,
      key y < key x := by
    intro x hx y hy
    rcases hnew with rfl | ⟨hne, hnew⟩
    · cases hx
    · rw [List.head?_append_of_ne_nil _ hne] at hy
      exact hnew x hx y hy
  rw [page_eq hrest] at hlist
  rw [fetch, hlist]
  by_cases hmore : limit < ((wanted key sel s).drop n).length
  · -- a full page, and there is more
    obtain ⟨z, hz⟩ : ∃ z, (((wanted key sel s).drop n).take limit).getLast? = some z := by
      refine Option.ne_none_iff_exists'.mp fun h => ?_
      have h := congrArg List.length (List.getLast?_eq_none_iff.mp h)
      rw [List.length_take, List.length_nil] at h
      omega
    simp only [if_pos hmore, hz, Option.map_some]
    refine ⟨hnodup, hexisting, fun _ => ⟨new, hrows, hhead⟩, fun e => nofun, ?_,
      nofun, ?_, nofun⟩
    · exact happend.trans (by rw [hsucc]; rfl)
    · intro c hc
      cases hc
      refine ⟨?_, z, ?_, rfl⟩
      · show (s.fetches + 1) * limit < (wanted key sel s).length
        omega
      · show (s.got ++ _).getLast? = some z
        rw [List.getLast?_append, hz]
        rfl
  · -- the last page
    simp only [if_neg hmore, Option.map_none]
    refine ⟨hnodup, hexisting, fun _ => ⟨new, hrows, hhead⟩, fun e => nofun, ?_,
      nofun, fun c => nofun, fun _ => ⟨?_, ?_⟩⟩
    · exact happend.trans (by rw [hsucc]; rfl)
    · exact happend.trans (List.take_of_length_le (by omega))
    · show (s.fetches + 1) * limit ≤ (wanted key sel s).length + limit
      omega

/-- **A step keeps the invariant.** -/
theorem sound_step {l : Label ρ} (hlimit : 0 < limit)
    (hlist : ∀ rows bound, list rows (bound.map cur) = .ok ((page key sel limit bound rows).1,
      (page key sel limit bound rows).2.map cur))
    (hs : Sound key sel limit cur s) (h : step key list s l = some t) :
    Sound key sel limit cur t := by
  cases l with
  | insert x =>
      simp only [step] at h
      split_ifs at h with hx
      cases h
      refine ⟨?_, hs.existing_nodup, fun hp => ?_, hs.accepted, hs.segment, hs.start, hs.more,
        hs.done⟩
      · exact List.nodup_cons.mpr ⟨hx.1, hs.nodup⟩
      · obtain ⟨new, hnew, habove⟩ := hs.grown hp
        refine ⟨x :: new, by rw [hnew, List.cons_append], ?_⟩
        exact List.forall_mem_cons.mpr ⟨hx.2, habove⟩
  | fetch =>
      simp only [step] at h
      cases hp : s.phase with
      | start =>
          rw [hp] at h
          cases h
          obtain ⟨hfetches, hexisting⟩ := hs.start hp
          have hgot : s.got = [] := by rw [hs.segment, hfetches, Nat.zero_mul, List.take_zero]
          have hrows : s.rows = [] ++ s.rows := rfl
          refine fetch_sound (s := { s with existing := s.rows }) (n := 0) hlimit
            (hlist s.rows none) hs.nodup hs.nodup hrows (Or.inl rfl) ?_ ?_ (Nat.zero_le _) ?_
          · show s.got = List.take (s.fetches * limit) _
            rw [hgot, hfetches, Nat.zero_mul, List.take_zero]
          · show 0 = s.fetches * limit
            rw [hfetches, Nat.zero_mul]
          · simp only [below, Option.all_none, Bool.and_true]
            rfl
      | more c =>
          rw [hp] at h
          cases h
          obtain ⟨hlt, z, hz, rfl⟩ := hs.more c hp
          obtain ⟨new, hnew, habove⟩ := hs.grown (by rw [hp]; nofun)
          have hne : s.got ≠ [] := by
            intro hnil
            rw [hnil] at hz
            cases hz
          obtain ⟨y, hy⟩ : ∃ y, s.got.head? = some y := by
            obtain ⟨y, r, hr⟩ := List.exists_cons_of_ne_nil hne
            exact ⟨y, by rw [hr]; rfl⟩
          exact fetch_sound hlimit (hlist s.rows (some z)) hs.nodup hs.existing_nodup hnew
            (Or.inr ⟨hne, habove⟩) hs.segment rfl hlt.le
            (rest_eq hs.existing_nodup hnew (fun x hx => habove x hx y hy) hs.segment hy hz)
      | done =>
          rw [hp] at h
          cases h
      | failed e =>
          rw [hp] at h
          cases h

lemma Sound.exact (hs : Sound key sel limit cur s) : Exact key list sel limit s := by
  have hwanted : (wanted key sel s).Pairwise fun x y => key y < key x :=
    descending_pairwise (hs.existing_nodup.sublist (List.filter_sublist.map key))
  have hlength : (wanted key sel s).length = (s.existing.filter sel).length := length_descending
  refine ⟨hs.accepted, fun hd => ?_, ?_, hs.segment, ?_, fun hd x => ?_⟩
  · cases hp : s.phase with
    | start => exact ⟨_, by simp only [step, hp]; rfl⟩
    | more c => exact ⟨_, by simp only [step, hp]; rfl⟩
    | done => exact absurd hp hd
    | failed e => exact absurd hp (hs.accepted e)
  · rw [← hlength]
    cases hp : s.phase with
    | start => rw [(hs.start hp).1, Nat.zero_mul]; exact Nat.zero_le _
    | more c => exact (hs.more c hp).1.le.trans (Nat.le_add_right _ _)
    | done => exact (hs.done hp).2
    | failed e => exact absurd hp (hs.accepted e)
  · rw [hs.segment]
    exact hwanted.sublist (List.take_sublist _ _)
  · rw [(hs.done hd).1, wanted, mem_descending, List.mem_filter]

/-- **Following the cursors of a listing is exact.** -/
theorem exact_of_reachable (hlimit : 0 < limit)
    (hlist : ∀ rows bound, list rows (bound.map cur) = .ok ((page key sel limit bound rows).1,
      (page key sel limit bound rows).2.map cur))
    (h : (system key list).Reachable s) : Exact key list sel limit s :=
  (h.invariant (I := Sound key sel limit cur) (fun _ => init_sound)
    fun _ _ _ hs _ => sound_step hlimit hlist hs).exact

end Walk

end GgRelay.Keyset
