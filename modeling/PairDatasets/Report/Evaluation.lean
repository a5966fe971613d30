import PairDatasets.Evaluation.Ranking
import PairDatasets.Report.Statistics

/-!
An evaluation as text: the four counts, the scores, and the weakest problems.
-/
namespace PairDatasets.Evaluation

/-- A share in percent with two places. -/
def percentText (share : Float) : String := Text.rightFixed 6 2 (100.0 * share)

/-- A share that may be missing. -/
def percentText? (share : Option Float) : String := (share.map percentText).getD "   -  "

def countLines (e : Evaluation) : List String :=
  [s!"Confusion matrix over {e.size} samples (rows = actual, columns = predicted)",
    "            dissimilar  similar",
    "dissimilar  " ++ Text.rightNat 10 e.trueNegatives ++ " " ++ Text.rightNat 8 e.falsePositives,
    "similar     " ++ Text.rightNat 10 e.falseNegatives ++ " " ++ Text.rightNat 8 e.truePositives]

def scoreLines (e : Evaluation) : List String :=
  ["Accuracy " ++ Decimal.fixed 4 e.accuracy ++ "  Precision " ++ Decimal.fixed 4 e.precision ++
      "  Recall " ++ Decimal.fixed 4 e.sensitivity ++ "  F1 " ++ Decimal.fixed 4 e.f1,
    s!"{e.tested.length} problems took part in evaluated pairs"]

def similarLine (c : Corpus) (s : ProblemScore) : String :=
  Text.left 16 (c.nameOf s.problem) ++ " " ++ Text.rightNat 6 s.score.tests ++ " tests " ++
    percentText s.score.accuracy ++ "%"

/-- The names of two problems. -/
def namesText (c : Corpus) (s : CrossScore) : String :=
  Text.left 16 (c.nameOf s.problem1) ++ " " ++ Text.left 16 (c.nameOf s.problem2)

def dissimilarLine (c : Corpus) (s : CrossScore) : String :=
  namesText c s ++ " " ++ percentText? s.forward.accuracy? ++ "% " ++
    percentText? s.backward.accuracy? ++ "% combined " ++ percentText s.combined ++ "%"

def asymmetryLine (c : Corpus) (s : CrossScore) : String :=
  namesText c s ++ " difference " ++ percentText s.asymmetry ++ "%"

/-- The text of an evaluation with up to `top` problems in each ranking. -/
def text (e : Evaluation) (c : Corpus) (top : Nat) : String :=
  Text.unlines <|
    countLines e ++ scoreLines e ++
    ["", "Lowest similar-pair accuracy"] ++ (e.worstSimilar top).map (similarLine c) ++
    ["", "Lowest dissimilar-pair accuracy"] ++
    (e.worstDissimilar top).map (dissimilarLine c) ++
    ["", "Most asymmetric dissimilar-pair accuracy"] ++
    (e.mostAsymmetric top).map (asymmetryLine c)

end PairDatasets.Evaluation
