import GgRelay.Lib.Glob
import GgRelay.Lib.PosixPath
import GgRelay.Session.Frames.Payload

/-!
Which tool calls need a human (`session/hitl/policy.py`, `ToolPolicy`).

* `ToolPolicy` carries the invariant of its constructor, `ToolPolicy.decide` is the decision, with
  the working directory of the process as an argument of its own;
* `Safe` is what a path argument has to be from the session's directory, `examinedAsMeant` says when
  the code looks at an argument as the session does;
* `path_sound_iff` says when an acceptance is sound.
-/

namespace GgRelay.Policy

open Frames

/-- `Decision`. -/
inductive Decision where
  | accept
  | deny
  | needsHitl
  deriving DecidableEq, Repr

/-- `_DEFAULT_AUTO_ACCEPT`. -/
def defaultAutoAccept : Finset String := {"Edit", "Write", "MultiEdit", "NotebookEdit"}

/-- `_DEFAULT_HITL`. -/
def defaultHitl : Finset String := {"Bash", "WebFetch", "Task"}

/-- `_DEFAULT_NEUTRAL`. -/
def defaultNeutral : Finset String := {"Read", "Glob", "Grep", "LS"}

/-- `_DEFAULT_DANGEROUS`. -/
def defaultDangerous : List String :=
  ["*.env", "*/.git/*", "*/secrets/*", "*/credentials/*", "*id_rsa*", "*.pem"]

/-- `_PATH_FIELDS`. -/
def pathFields : List String := ["file_path", "notebook_path", "path"]

/-- `ToolPolicy`. -/
structure ToolPolicy where
  autoAcceptTools : Finset String := defaultAutoAccept
  hitlTools : Finset String := defaultHitl
  neutralTools : Finset String := defaultNeutral
  pathRequiredTools : Finset String := defaultAutoAccept
  dangerousPatterns : List String := defaultDangerous
  /-- `__post_init__` -/
  pathRequired_subset : pathRequiredTools ⊆ autoAcceptTools := by decide

/-- The system that the policy runs on. -/
structure Host where
  /-- `os.getcwd()` -/
  workingDir : PosixPath
  /-- `str.lower` -/
  lower : List Char → List Char

/-- The string arguments that a field of `_PATH_FIELDS` holds, in its order. -/
def pathArguments (args : Obj) : List String := pathFields.filterMap fun k => asStr (get args k)

/-- `_extract_path`. -/
def extractPath (args : Obj) : Option PosixPath :=
  ((pathArguments args).find? (· ≠ "")).map fun s => .ofText s.toList

/-- `resolve` raises no `ValueError`: there is no null character in the names. -/
def resolvable (p : PosixPath) : Bool := p.names.all fun n => (Char.ofNat 0) ∉ n

namespace ToolPolicy

variable (P : ToolPolicy) (H : Host)

/-- `_inside_cwd`. -/
def insideCwd (path cwd : PosixPath) : Bool :=
  resolvable path && resolvable cwd &&
    decide ((H.workingDir.resolve cwd).IsUnder (H.workingDir.resolve path))

/-- A pattern matches the text of a resolved path, in lower case both. -/
def dangerous (resolved : PosixPath) : Bool :=
  P.dangerousPatterns.any fun pat => fnmatch (H.lower resolved.text) (H.lower pat.toList)

/-- `_matches_dangerous`. -/
def matchesDangerous (path : PosixPath) : Bool := P.dangerous H (H.workingDir.resolve path)

/-- `decide`. -/
def decide (tool : String) (args : Obj) (cwd : PosixPath) : Decision :=
  if tool ∈ P.neutralTools then .accept
  else if tool ∈ P.autoAcceptTools then
    match extractPath args with
    | none => if tool ∈ P.pathRequiredTools then .needsHitl else .accept
    | some path =>
        if !insideCwd H path cwd then .needsHitl
        else if P.matchesDangerous H path then .needsHitl
        else .accept
  else if tool ∈ P.hitlTools then .needsHitl
  else .needsHitl

end ToolPolicy

/-! ### What is to hold -/

/-- The session's directory; it may be relative itself. -/
def sessionDir (H : Host) (cwd : PosixPath) : PosixPath := H.workingDir.resolve cwd

/-- **The path argument is as it has to be**, taken from the session's directory. -/
def Safe (P : ToolPolicy) (H : Host) (cwd : PosixPath) (arg : String) : Prop :=
  (sessionDir H cwd).IsUnder ((sessionDir H cwd).resolve (.ofText arg.toList)) ∧
    P.dangerous H ((sessionDir H cwd).resolve (.ofText arg.toList)) = false

/-- **What the decision promises.** -/
def PathSound (P : ToolPolicy) (H : Host) (tool : String) (args : Obj) (cwd : PosixPath) : Prop :=
  (P.decide H tool args cwd = .accept → ∀ arg ∈ pathArguments args, Safe P H cwd arg) ∧
    (P.decide H tool args cwd ≠ .accept → P.decide H tool args cwd = .needsHitl)

/-- The code takes the path from where the session does: it is absolute, or the process works in the
session's directory. -/
def TakenFromSession (H : Host) (cwd path : PosixPath) : Prop :=
  path.root ≠ .relative ∨ sessionDir H cwd = H.workingDir

/-- The examined argument, the first that is not empty, passes the tests. -/
def Passes (P : ToolPolicy) (H : Host) (args : Obj) (cwd : PosixPath) : Prop :=
  ∃ path ∈ extractPath args, ToolPolicy.insideCwd H path cwd = true ∧
    P.matchesDangerous H path = false

/-- The argument is the examined one, and it is examined as it is meant. -/
def ExaminedAsMeant (P : ToolPolicy) (H : Host) (tool : String) (args : Obj) (cwd : PosixPath)
    (arg : String) : Prop :=
  tool ∉ P.neutralTools ∧ (pathArguments args).find? (· ≠ "") = some arg ∧
    TakenFromSession H cwd (.ofText arg.toList)

section Sound

variable {P : ToolPolicy} {H : Host} {tool : String} {args : Obj} {cwd : PosixPath} {arg : String}

/-- The two directories resolve it to the same path. -/
lemma resolve_sessionDir {path : PosixPath} (h : TakenFromSession H cwd path) :
    (sessionDir H cwd).resolve path = H.workingDir.resolve path := by
  rcases h with habsolute | hdir
  · exact PosixPath.resolve_of_absolute habsolute
  · rw [hdir]

/-- A path that passes, and is examined as it is meant, is safe. -/
lemma safe_of_examined (he : ExaminedAsMeant P H tool args cwd arg) (hp : Passes P H args cwd) :
    Safe P H cwd arg := by
  obtain ⟨-, hfind, htaken⟩ := he
  obtain ⟨path, hpath, hinside, hdangerous⟩ := hp
  rw [extractPath, hfind] at hpath
  obtain rfl := Option.some.inj hpath
  rw [Safe, resolve_sessionDir htaken]
  exact ⟨of_decide_eq_true (Bool.and_eq_true_iff.mp hinside).2, hdangerous⟩

lemma decide_eq (htool : tool ∈ P.pathRequiredTools) :
    (P.decide H tool args cwd = .accept ↔ tool ∈ P.neutralTools ∨ Passes P H args cwd) ∧
      (P.decide H tool args cwd ≠ .accept → P.decide H tool args cwd = .needsHitl) := by
  have hauto := P.pathRequired_subset htool
  rw [ToolPolicy.decide, Passes]
  by_cases hneutral : tool ∈ P.neutralTools
  · simp [hneutral]
  · rw [if_neg hneutral, if_pos hauto]
    cases extractPath args with
    | none => simp [htool, hneutral]
    | some path =>
        cases hinside : ToolPolicy.insideCwd H path cwd with
        | false => simp [hneutral, hinside]
        | true =>
            cases hdangerous : P.matchesDangerous H path with
            | true => simp [hneutral, hdangerous, hinside]
            | false => simp [hinside, hdangerous]

/-- **When the acceptances are sound**: for a tool that needs a path, exactly when it is accepted
only with every argument safe that is not examined as it is meant. -/
theorem path_sound_iff (htool : tool ∈ P.pathRequiredTools) :
    PathSound P H tool args cwd ↔
      (tool ∈ P.neutralTools ∨ Passes P H args cwd →
        ∀ arg ∈ pathArguments args, ¬ExaminedAsMeant P H tool args cwd arg →
          Safe P H cwd arg) := by
  obtain ⟨haccept, hother⟩ := @decide_eq P H tool args cwd htool
  rw [PathSound, haccept, and_iff_left hother]
  refine ⟨fun h hp arg harg _ => h hp arg harg, fun h hp arg harg => ?_⟩
  by_cases he : ExaminedAsMeant P H tool args cwd arg
  · exact safe_of_examined he (hp.resolve_left he.1)
  · exact h hp arg harg he

end Sound

/-- A process that works where the session does. -/
def plainHost : Host where
  workingDir := .ofText "/work".toList
  lower s := s.map Char.toLower

/-- A file inside the directory. -/
theorem inside_sound : PathSound {} plainHost "Write" [("file_path", .str "/work/a.txt")]
    (.ofText "/work".toList) := by
  refine (path_sound_iff (by decide)).mpr fun _ arg harg hnot => ?_
  have harg' : arg = "/work/a.txt" := List.mem_singleton.mp harg
  exact absurd ⟨by decide, by rw [harg']; rfl, Or.inl (by rw [harg']; decide)⟩ hnot

/-- A notebook outside the directory is accepted if another argument is inside. -/
theorem second_argument_unsound : ¬PathSound {} plainHost "NotebookEdit"
    [("file_path", .str "/work/a.ipynb"), ("notebook_path", .str "/etc/passwd")]
    (.ofText "/work".toList) := by
  intro h
  have haccept : ({} : ToolPolicy).decide plainHost "NotebookEdit"
      [("file_path", .str "/work/a.ipynb"), ("notebook_path", .str "/etc/passwd")]
      (.ofText "/work".toList) = .accept := by
    decide
  have hsafe := h.1 haccept "/etc/passwd" (by decide)
  exact absurd hsafe.1 (by decide)

end GgRelay.Policy
