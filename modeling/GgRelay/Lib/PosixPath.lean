import Mathlib.Tactic

/-!
POSIX paths as `pathlib` holds them: the leading slashes, and the names between the others.

* `PosixPath.ofText` and `PosixPath.text` parse and print, `ofText_text` is the round trip;
* `PosixPath.resolve` takes a path from a directory, without symbolic links: `resolve_of_absolute`
  and `names_resolve_resolve` say when the directory matters;
* `PosixPath.IsUnder` is the containment of resolved paths.
-/

namespace GgRelay

/-- The slashes that a path starts with; more than two are one. -/
inductive PathRoot where
  | relative
  | slash
  | slashes
  deriving DecidableEq, Repr

/-- The slashes themselves. -/
def PathRoot.text : PathRoot → List Char
  | .relative => []
  | .slash => ['/']
  | .slashes => ['/', '/']

/-- The slashes in front of a text. -/
def PathRoot.ofText : List Char → PathRoot
  | '/' :: '/' :: '/' :: _ => .slash
  | '/' :: '/' :: _ => .slashes
  | '/' :: _ => .slash
  | _ => .relative

/-- What stands between the slashes of a path: neither nothing nor a dot. -/
def PathName (n : List Char) : Prop := n ≠ [] ∧ n ≠ ['.'] ∧ '/' ∉ n

/-- A `PurePosixPath`. -/
@[ext] structure PosixPath where
  root : PathRoot
  names : List (List Char)
  pathName : ∀ n ∈ names, PathName n

namespace PosixPath

/-- No slash is left after the splitting. -/
lemma not_mem_of_mem_splitOn {s : List Char} : ∀ n ∈ s.splitOn '/', '/' ∉ n := by
  induction s with
  | nil => simp
  | cons c s ih =>
      rw [List.splitOn_cons_eq_if_modifyHead]
      split_ifs with hc
      · exact List.forall_mem_cons.mpr ⟨List.not_mem_nil, ih⟩
      · obtain ⟨m, ns, hns⟩ := List.exists_cons_of_ne_nil (List.splitOn_ne_nil '/' s)
        rw [hns, List.forall_mem_cons] at ih
        rw [hns, List.modifyHead_cons]
        refine List.forall_mem_cons.mpr ⟨?_, ih.2⟩
        rw [List.mem_cons, not_or]
        exact ⟨fun h => hc (beq_iff_eq.mpr h.symm), ih.1⟩

/-- The names of a text: `rel.split("/")` without the empty ones and the dots. -/
def namesOf (s : List Char) : List (List Char) :=
  (s.splitOn '/').filter fun n => n ≠ [] ∧ n ≠ ['.']

/-- `PurePosixPath(s)`. -/
def ofText (s : List Char) : PosixPath where
  root := .ofText s
  names := namesOf s
  pathName n hn := by
    obtain ⟨hmem, hn⟩ := List.mem_filter.mp hn
    obtain ⟨hnil, hdot⟩ := of_decide_eq_true hn
    exact ⟨hnil, hdot, not_mem_of_mem_splitOn n hmem⟩

/-- The names with slashes between them. -/
def namesText (ns : List (List Char)) : List Char := ['/'].intercalate ns

/-- `str(path)`. -/
def text (p : PosixPath) : List Char :=
  if p.root = .relative ∧ p.names = [] then ['.'] else p.root.text ++ namesText p.names

section RoundTrip

variable {ns : List (List Char)} {p : PosixPath}

lemma namesOf_namesText (h : ∀ n ∈ ns, PathName n) : namesOf (namesText ns) = ns := by
  by_cases hns : ns = []
  · subst hns
    rfl
  · rw [namesOf, namesText, List.splitOn_intercalate '/' (fun n hn => (h n hn).2.2) hns,
      List.filter_eq_self]
    exact fun n hn => decide_eq_true ⟨(h n hn).1, (h n hn).2.1⟩

lemma namesOf_slash (s : List Char) : namesOf ('/' :: s) = namesOf s := by
  rw [namesOf, List.splitOn_cons_eq_if_modifyHead, if_pos (beq_self_eq_true _),
    List.filter_cons_of_neg (by simp)]
  rfl

/-- The names do not start with a slash. -/
lemma head?_namesText (h : ∀ n ∈ ns, PathName n) : (namesText ns).head? ≠ some '/' := by
  cases ns with
  | nil => simp [namesText]
  | cons n ns =>
      obtain ⟨hnil, -, hslash⟩ := h n List.mem_cons_self
      obtain ⟨c, cs, rfl⟩ := List.exists_cons_of_ne_nil hnil
      have hc : c ≠ '/' := fun hc => hslash (hc ▸ List.mem_cons_self)
      cases ns with
      | nil => simpa [namesText] using hc
      | cons m ns => simpa [namesText, List.intercalate_cons_cons] using hc

lemma ofText_root {s : List Char} (h : s.head? ≠ some '/') (r : PathRoot) :
    PathRoot.ofText (r.text ++ s) = r := by
  cases s with
  | nil => cases r <;> rfl
  | cons c s =>
      have hc : c ≠ '/' := fun hc => h (by rw [hc]; rfl)
      cases r <;> simp [PathRoot.text, PathRoot.ofText, hc]

/-- **A path is read back from its text.** -/
theorem ofText_text (p : PosixPath) : ofText p.text = p := by
  by_cases hp : p.root = .relative ∧ p.names = []
  · rw [text, if_pos hp]
    ext1
    · exact hp.1.symm
    · exact hp.2.symm
  · rw [text, if_neg hp]
    ext1
    · exact ofText_root (head?_namesText p.pathName) p.root
    · have hroot : namesOf (p.root.text ++ namesText p.names) = namesOf (namesText p.names) := by
        cases p.root with
        | relative => rfl
        | slash => exact namesOf_slash _
        | slashes => exact (namesOf_slash _).trans (namesOf_slash _)
      exact hroot.trans (namesOf_namesText p.pathName)

/-- The text of a path is not empty. -/
lemma text_ne_nil (p : PosixPath) : p.text ≠ [] := by
  rw [text]
  split_ifs with hp
  · exact List.cons_ne_nil _ _
  · intro h
    obtain ⟨hroot, hnames⟩ := List.append_eq_nil_iff.mp h
    refine hp ⟨by cases hr : p.root <;> simp_all [PathRoot.text], ?_⟩
    rw [← namesOf_namesText p.pathName, hnames]
    rfl

end RoundTrip

/-! ### Resolved paths -/

/-- One name further: `..` goes up, and stays at the root. -/
def walk (here : List (List Char)) (n : List Char) : List (List Char) :=
  if n = ['.', '.'] then here.dropLast else here ++ [n]

/-- The names of the path, taken from the directory `dir`. -/
def absoluteNames (dir p : PosixPath) : List (List Char) :=
  if p.root = .relative then dir.names ++ p.names else p.names

lemma pathName_walk {here ns : List (List Char)} (hhere : ∀ n ∈ here, PathName n)
    (hns : ∀ n ∈ ns, PathName n) : ∀ n ∈ ns.foldl walk here, PathName n := by
  induction ns generalizing here with
  | nil => exact hhere
  | cons m ns ih =>
      obtain ⟨hm, hns⟩ := List.forall_mem_cons.mp hns
      refine ih ?_ hns
      rw [walk]
      split_ifs
      · exact fun n hn => hhere n (List.mem_of_mem_dropLast hn)
      · intro n hn
        rcases List.mem_append.mp hn with hn | hn
        · exact hhere n hn
        · exact List.mem_singleton.mp hn ▸ hm

/-- `path.resolve(strict=False)` in the directory `dir`, without symbolic links. -/
def resolve (dir p : PosixPath) : PosixPath where
  root := .slash
  names := (absoluteNames dir p).foldl walk []
  pathName := by
    refine pathName_walk (fun _ h => absurd h List.not_mem_nil) ?_
    rw [absoluteNames]
    split_ifs
    · intro n hn
      exact (List.mem_append.mp hn).elim (dir.pathName n) (p.pathName n)
    · exact p.pathName

/-- `path.relative_to(dir)` does not raise, on resolved paths. -/
def IsUnder (dir p : PosixPath) : Prop := dir.names <+: p.names

instance (dir p : PosixPath) : Decidable (IsUnder dir p) :=
  inferInstanceAs (Decidable (_ <+: _))

section Resolve

variable {dir dir' p : PosixPath}

lemma names_resolve : (resolve dir p).names = (absoluteNames dir p).foldl walk [] := rfl

/-- What has no dots walks to itself. -/
lemma foldl_walk_of_no_dots {here ns : List (List Char)} (h : ['.', '.'] ∉ ns) :
    ns.foldl walk here = here ++ ns := by
  induction ns generalizing here with
  | nil => simp
  | cons n ns ih =>
      rw [List.mem_cons, not_or] at h
      rw [List.foldl_cons, ih h.2, walk, if_neg (Ne.symm h.1), List.append_assoc,
        List.singleton_append]

lemma no_dots_walk {here ns : List (List Char)} (h : ['.', '.'] ∉ here) :
    ['.', '.'] ∉ ns.foldl walk here := by
  induction ns generalizing here with
  | nil => exact h
  | cons n ns ih =>
      refine ih ?_
      rw [walk]
      split_ifs with hn
      · exact fun hm => h (List.mem_of_mem_dropLast hm)
      · rw [List.mem_append, List.mem_singleton, not_or]
        exact ⟨h, Ne.symm hn⟩

/-- No dots are left in a resolved path. -/
lemma no_dots_resolve : ['.', '.'] ∉ (resolve dir p).names := no_dots_walk List.not_mem_nil

/-- An absolute path does not depend on the directory. -/
lemma resolve_of_absolute (h : p.root ≠ .relative) : resolve dir p = resolve dir' p := by
  ext1
  · rfl
  · rw [names_resolve, names_resolve, absoluteNames, absoluteNames, if_neg h, if_neg h]

/-- The directory may be resolved itself. -/
lemma names_resolve_resolve (h : p.root = .relative) :
    (resolve (resolve dir' dir) p).names
      = p.names.foldl walk (resolve dir' dir).names := by
  have hwalk : (resolve dir' dir).names.foldl walk [] = [] ++ (resolve dir' dir).names :=
    foldl_walk_of_no_dots no_dots_resolve
  rw [names_resolve, absoluteNames, if_pos h, List.foldl_append, hwalk, List.nil_append]

end Resolve

end PosixPath

end GgRelay
