import PairDatasets.Corpus.Basic
import PairDatasets.Sampling.Pair
import PairDatasets.Text.Csv

/-!
Pairs as comma separated records with the names of their problems and solutions.
-/
namespace PairDatasets

/-- The four names of a pair whose solutions exist. -/
def Corpus.sampleNames? (c : Corpus) (p : Pair) : Option (List String) := do
  let left ← c.solution? p.problem1 p.solution1
  let right ← c.solution? p.problem2 p.solution2
  return [(c.problemName? p.problem1).getD "", left.name,
    (c.problemName? p.problem2).getD "", right.name]

namespace Samples

def heading : List String := ["problem1", "solution1", "problem2", "solution2"]

/-- The records up to the first pair without its solutions, and that pair. -/
def records (c : Corpus) : List Pair → List (List String) × Option Pair
  | [] => ([], none)
  | p :: ps =>
    match c.sampleNames? p with
    | none => ([], some p)
    | some names =>
      let (rest, missing) := records c ps
      (names :: rest, missing)

/-- A table under its heading. -/
def text (rows : List (List String)) : String := String.join ((heading :: rows).map Text.Csv.record)

end Samples
end PairDatasets
