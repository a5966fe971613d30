import PairDatasets.Error
import PairDatasets.Evaluation.Tally

/-!
Comparing scores of a model with labels: the four counts of right and wrong answers, how well each
problem is recognised and how well each two problems are told apart, and the shares drawn from them.
-/
namespace PairDatasets

/-- A quotient that is 0 when there is nothing to divide by. -/
def ratio (num den : Nat) : Float :=
  if den = 0 then 0.0 else Float.ofNat num / Float.ofNat den

namespace Score

def accuracy (s : Score) : Float := ratio s.correct s.tests

def accuracy? (s : Score) : Option Float := if 0 < s.tests then some s.accuracy else none

end Score

/-- The score of the similar pairs of a problem. -/
structure ProblemScore where
  problem : Nat
  score : Score
  deriving DecidableEq, Repr

/-- The scores of the dissimilar pairs of two problems, by which of them is on the left. -/
structure CrossScore where
  problem1 : Nat
  problem2 : Nat
  forward : Score
  backward : Score
  deriving DecidableEq, Repr

namespace CrossScore

/-- Both directions together. -/
def combined (c : CrossScore) : Float := (c.forward.add c.backward).accuracy

/-- How far the directions differ, 0 unless both were tested. -/
def asymmetry (c : CrossScore) : Float :=
  match c.forward.accuracy?, c.backward.accuracy? with
  | some f, some b => (f - b).abs
  | _, _ => 0.0

end CrossScore

structure Evaluation extends Answers where
  /-- By label. -/
  similar : List ProblemScore
  /-- By the smaller label, then by the larger. -/
  dissimilar : List CrossScore
  /-- The labels that occur. -/
  tested : List Nat
  deriving DecidableEq, Repr

namespace Evaluation

/-- What a tally shows. -/
def ofTally (t : Tally) : Evaluation :=
  { t.answers with
    similar := t.similar.entries.map fun (p, s) => ⟨p, s⟩
    dissimilar := t.dissimilar.entries.map fun ((a, b), d) => ⟨a, b, d.forward, d.backward⟩
    tested := t.tested.keys }

/-- Evaluate samples. -/
def ofSamples (samples : List Sample) : Evaluation := ofTally (Tally.ofSamples samples)

/-- Join scores, labels and pairs, position by position. -/
def samples (mode : LabelMode) :
    List Float → List Int → List Pair → List Sample
  | x :: xs, l :: ls, p :: ps => Sample.ofScore mode x l p :: samples mode xs ls ps
  | _, _, _ => []

/-- Evaluate scores against labels; there must be as many of each as of pairs. -/
def ofScores (mode : LabelMode) (scores : List Float) (labels : List Int) (pairs : List Pair) :
    Except DatasetError Evaluation :=
  if scores.length ≠ labels.length ∨ labels.length ≠ pairs.length then
    .error (.configuration (.lengthsDiffer scores.length labels.length pairs.length))
  else .ok (ofSamples (samples mode scores labels pairs))

def size (e : Evaluation) : Nat :=
  e.trueNegatives + e.falsePositives + e.falseNegatives + e.truePositives

def accuracy (e : Evaluation) : Float := ratio (e.trueNegatives + e.truePositives) e.size

/-- The share of similar answers that are right. -/
def precision (e : Evaluation) : Float :=
  ratio e.truePositives (e.truePositives + e.falsePositives)

/-- The share of similar pairs that are found. -/
def sensitivity (e : Evaluation) : Float :=
  ratio e.truePositives (e.truePositives + e.falseNegatives)

/-- The weighted harmonic mean of both shares; `beta` is the weight of the second. -/
def fbeta (e : Evaluation) (beta : Float) : Float :=
  let weight := beta * beta
  let den := weight * e.precision + e.sensitivity
  if den == 0.0 then 0.0 else (1.0 + weight) * e.precision * e.sensitivity / den

def f1 (e : Evaluation) : Float := e.fbeta 1.0

end Evaluation
end PairDatasets
