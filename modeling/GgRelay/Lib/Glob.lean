import Mathlib.Tactic

/-!
File-name patterns as `fnmatch` reads them: `*`, `?`, `[seq]` and `[!seq]`, over whole texts, slashes
and line ends included.

* `globTokens` reads a pattern, `globMatch` matches it, `fnmatch` is both.
-/

namespace GgRelay

/-- What a part of a pattern stands for. -/
inductive GlobToken where
  /-- `*` -/
  | any
  /-- `?` -/
  | one
  /-- `[seq]`, or `[!seq]` if it is negated, as a list of ranges -/
  | set (negated : Bool) (ranges : List (Char × Char))
  | lit (c : Char)
  deriving DecidableEq

/-- The ranges between two brackets. -/
def globRanges : List Char → List (Char × Char)
  | c :: '-' :: d :: p => (c, d) :: globRanges p
  | c :: p => (c, c) :: globRanges p
  | [] => []

/-- The set that a bracket opens, and how many characters are read up to its end; `none` if it is not
closed. A closing bracket right after the opening one is a member. -/
def globSet (p : List Char) : Option (GlobToken × ℕ) :=
  let negated := p.head? = some '!'
  let q := if negated then p.tail else p
  let first := q.take (if q.head? = some ']' then 1 else 0)
  let q := q.drop first.length
  let seq := q.takeWhile (· ≠ ']')
  if q.length ≤ seq.length then none
  else
    some (.set negated (globRanges (first ++ seq)),
      (if negated then 1 else 0) + first.length + seq.length + 1)

/-- The tokens of a pattern, of which a number of characters has been read already. -/
def globTokens : ℕ → List Char → List GlobToken
  | _, [] => []
  | n + 1, _ :: p => globTokens n p
  | 0, c :: p =>
      if c = '*' then .any :: globTokens 0 p
      else if c = '?' then .one :: globTokens 0 p
      else if c = '[' then
        match globSet p with
        | some (t, n) => t :: globTokens n p
        | none => .lit '[' :: globTokens 0 p
      else .lit c :: globTokens 0 p

/-- The character is in one of the ranges. -/
def inRanges (ranges : List (Char × Char)) (c : Char) : Bool :=
  ranges.any fun r => r.1 ≤ c && c ≤ r.2

/-- The text matches the tokens. -/
def globMatch : List GlobToken → List Char → Bool
  | [], s => s.isEmpty
  | .any :: p, s => s.tails.any (globMatch p)
  | .one :: p, s =>
      match s with
      | [] => false
      | _ :: s => globMatch p s
  | .set negated ranges :: p, s =>
      match s with
      | [] => false
      | c :: s => (inRanges ranges c != negated) && globMatch p s
  | .lit d :: p, s =>
      match s with
      | [] => false
      | c :: s => c = d && globMatch p s

/-- `fnmatch(s, p)`. -/
def fnmatch (s p : List Char) : Bool := globMatch (globTokens 0 p) s

end GgRelay
