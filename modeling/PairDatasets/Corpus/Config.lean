import PairDatasets.Error

/-!
Where a dataset lies, and the limits by which problems and solutions of it are kept.
-/
namespace PairDatasets

/-- A dataset and its limits. -/
structure CorpusConfig where
  directory : String := "."
  /-- Solutions with fewer tokens are left out. -/
  minTokens : Nat := 4
  /-- Solutions with more tokens are left out. -/
  maxTokens : Option Nat := none
  /-- Problems with fewer kept solutions are left out. -/
  minSolutions : Nat := 1
  /-- How many problems are read; it is an error if there are fewer. -/
  maxProblems : Option Nat := none
  /-- The problems to read, instead of all. -/
  problemList : Option (List String) := none
  deriving DecidableEq, Repr, Inhabited

namespace CorpusConfig

/-- The upper limit of lengths, if it lies below the lower one. -/
def crossed? (c : CorpusConfig) : Option Nat := c.maxTokens.filter (· < c.minTokens)

/-- Refuse limits that leave nothing. -/
def check (c : CorpusConfig) : Except DatasetError Unit :=
  match c.crossed? with
  | some long => .error (.configuration (.thresholdsCrossed long c.minTokens))
  | none => if c.maxProblems = some 0 then .error (.configuration .noProblems) else .ok ()

/-- The file of a problem. -/
def problemPath (c : CorpusConfig) (problem : String) : String :=
  Path.join c.directory (problem ++ ".tkn")

end CorpusConfig

end PairDatasets
