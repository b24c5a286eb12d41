import Mathlib.Data.List.Basic

/-!
# Machinery/Fnmatch — shell patterns

`fnmatch.fnmatch` on a system whose file names are case sensitive: `*`, `?` and `[…]`, everything
else literal, and the whole name has to match.
-/

namespace BareAnalysis.Fnmatch

/-- One piece of a pattern. -/
inductive Token
  | star
  | any
  | set (negated : Bool) (ranges : List (Char × Char))
  | literal (c : Char)
  deriving DecidableEq, Repr

/-- The body of a set: single characters and ranges; a range read backwards is empty. -/
def ranges : List Char → List (Char × Char)
  | a :: '-' :: b :: rest => (a, b) :: ranges rest
  | a :: rest => (a, a) :: ranges rest
  | [] => []

/-- The body of a set and what follows it; a `]` in first place belongs to the body, after the
`!` of a negated set too.  `none` when the set is never closed. -/
def setBody (chars : List Char) : Option (Bool × List Char × List Char) :=
  let (negated, chars) := match chars with
    | '!' :: rest => (true, rest)
    | rest => (false, rest)
  let (lead, chars) := match chars with
    | ']' :: rest => ([']'], rest)
    | rest => ([], rest)
  match chars.dropWhile (· != ']') with
  | [] => none
  | _ :: rest => some (negated, lead ++ chars.takeWhile (· != ']'), rest)

/-- Split a pattern into its pieces; `fuel` bounds its length. -/
def tokens : ℕ → List Char → List Token
  | 0, _ => []
  | _ + 1, [] => []
  | fuel + 1, '*' :: rest => .star :: tokens fuel rest
  | fuel + 1, '?' :: rest => .any :: tokens fuel rest
  | fuel + 1, '[' :: rest =>
    match setBody rest with
    | none => .literal '[' :: tokens fuel rest
    | some (negated, body, rest) => .set negated (ranges body) :: tokens fuel rest
  | fuel + 1, c :: rest => .literal c :: tokens fuel rest

/-- The pieces match the whole name. -/
def «matches» : List Token → List Char → Bool
  | [], name => name.isEmpty
  | .star :: ts, name => name.tails.any («matches» ts)
  | .any :: _, [] => false
  | .any :: ts, _ :: name => «matches» ts name
  | .set _ _ :: _, [] => false
  | .set negated rs :: ts, c :: name =>
    (negated != rs.any fun r => decide (r.1 ≤ c ∧ c ≤ r.2)) && «matches» ts name
  | .literal _ :: _, [] => false
  | .literal d :: ts, c :: name => c == d && «matches» ts name

end BareAnalysis.Fnmatch

namespace BareAnalysis

/-- `fnmatch(name, pattern)`. -/
def fnmatch (name pattern : String) : Bool :=
  Fnmatch.«matches» (Fnmatch.tokens pattern.toList.length pattern.toList) name.toList

example : fnmatch "app/config/prod.json" "app/*.js[a-oz]?" = true := by decide

end BareAnalysis
