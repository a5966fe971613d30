import PairDatasets.Corpus.Basic

/-!
Length statistics of the solutions of a problem.
-/
namespace PairDatasets

/-- Counts and extremes of solution lengths, with the names that attain them. -/
structure Lengths where
  solutions : Nat := 0
  tokens : Nat := 0
  shortest : Nat := 0
  longest : Nat := 0
  shortestName : String := ""
  longestName : String := ""
  deriving DecidableEq, Repr, Inhabited

namespace Lengths

/-- Take one more solution in; of equal lengths the last one counts. -/
def observe (l : Lengths) (s : Solution) : Lengths :=
  let first := l.solutions = 0
  let short := first ∨ s.size ≤ l.shortest
  let long := first ∨ l.longest ≤ s.size
  { solutions := l.solutions + 1
    tokens := l.tokens + s.size
    shortest := if short then s.size else l.shortest
    shortestName := if short then s.name else l.shortestName
    longest := if long then s.size else l.longest
    longestName := if long then s.name else l.longestName }

def ofProblem (p : Problem) : Lengths := p.solutions.foldl observe {}

/-- Mean number of tokens, 0 without solutions. -/
def mean (l : Lengths) : Float :=
  if l.solutions = 0 then 0.0 else Float.ofNat l.tokens / Float.ofNat l.solutions

theorem solutions_foldl (l : Lengths) (ss : List Solution) :
    (ss.foldl observe l).solutions = l.solutions + ss.length := by
  induction ss generalizing l with
  | nil => rfl
  | cons s ss ih => simp only [List.foldl_cons, ih, List.length_cons, observe]; omega

@[simp] theorem solutions_ofProblem (p : Problem) : (ofProblem p).solutions = p.size := by
  simp [ofProblem, solutions_foldl, Problem.size]

end Lengths
end PairDatasets
