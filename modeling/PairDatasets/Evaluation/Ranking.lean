import PairDatasets.Evaluation.Basic
import PairDatasets.Order.Double

/-!
The weakest problems of an evaluation. Sorting is stable, so ties stay in the order of the labels.
-/
namespace PairDatasets.Evaluation

/-- The `k` entries with the lowest values. -/
def lowest {α : Type _} (value : α → Float) (k : Nat) (xs : List α) : List α :=
  (xs.mergeSort fun a b => doubleRank (value a) ≤ doubleRank (value b)).take k

/-- The `k` entries with the highest values. -/
def highest {α : Type _} (value : α → Float) (k : Nat) (xs : List α) : List α :=
  (xs.mergeSort fun a b => doubleRank (value b) ≤ doubleRank (value a)).take k

/-- The problems whose similar pairs are recognised least. -/
def worstSimilar (e : Evaluation) (k : Nat) : List ProblemScore :=
  lowest (fun s => s.score.accuracy) k e.similar

/-- The problems that are told apart least. -/
def worstDissimilar (e : Evaluation) (k : Nat) : List CrossScore :=
  lowest CrossScore.combined k e.dissimilar

/-- The problems for which the order of the sides matters most. -/
def mostAsymmetric (e : Evaluation) (k : Nat) : List CrossScore :=
  highest CrossScore.asymmetry k e.dissimilar

end PairDatasets.Evaluation
