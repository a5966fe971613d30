import PairDatasets.Corpus.Basic
import PairDatasets.Decimal.Fixed
import PairDatasets.Statistics.Split
import PairDatasets.Text.Column
import PairDatasets.Text.Pieces

/-!
Statistics of a split as text: a table of its problems, the skew in one line, and the usage of
solutions by side.
-/
namespace PairDatasets

/-- A double with some places, at the right of its column. -/
def Text.rightFixed (width places : Nat) (x : Float) : String :=
  right width (Decimal.fixed places x)

/-- A name for every label, also for those the corpus does not have. -/
def Corpus.nameOf (c : Corpus) (label : Nat) : String := (c.problemName? label).getD "?"

namespace Distribution

def heading : List String :=
  ["Probl  Same  Same%   Left  Left%  Right Right% Min N  Max N  Median Mean N Std N  Problem   " ++
     "Pare  Often",
   "Index    samples       sample       samples    pairs  pairs  pairs  pairs  pairs  name    " ++
     "problem Problem",
   Text.fill 105 '-']

/-- The name of a partner, or a dash. -/
def partnerText (c : Corpus) (partner : Option Nat) : String :=
  Text.left 7 ((partner.map c.nameOf).getD "   -   ")

def rowText (c : Corpus) (d : Distribution) (r : ProblemRow) : String :=
  let percent (n : Nat) := Text.rightFixed 5 2 (d.percent n)
  Text.join " "
    [Text.rightNat 4 r.problem, Text.rightNat 6 r.same, percent r.same ++ " ",
      Text.rightNat 6 r.left, percent r.left ++ " ", Text.rightNat 6 r.right, percent r.right,
      Text.rightNat 6 r.fewest, Text.rightNat 6 r.most, Text.rightFixed 6 1 r.median,
      Text.rightFixed 8 1 r.mean, Text.rightFixed 6 2 r.deviation,
      Text.left 7 (c.nameOf r.problem), partnerText c r.leastPartner,
      partnerText c r.mostPartner]

/-- How many problems are missing, and from what. -/
def summary (d : Distribution) : List String :=
  let present := d.problems - d.absent.length
  let lacking (labels : List Nat) (what : String) :=
    s!"  - {labels.length} problems are not present in {what}"
  [Text.fill 43 '-', s!"{d.absent.length} problems are not present in ANY samples",
    s!"Among the other {present} problems:",
    lacking d.withoutSame "SAME samples",
    lacking d.withoutDifferent "DIFFERENT samples",
    lacking d.withoutLeft "left side of DIFFERENT samples",
    lacking d.withoutRight "right side of DIFFERENT samples"] ++
  if 0 < d.outOfRange then
    [s!"{d.outOfRange} samples reference problems outside the reported range"]
  else []

def text (d : Distribution) (c : Corpus) : String :=
  Text.unlines (heading ++ d.rows.map (rowText c d) ++ summary d)

end Distribution

def Skew.text (s : Skew) : String :=
  s!"Cross-problem pairs: total {s.total} over {s.problems} problems, " ++
  s!"min {s.least} max {s.most} mean " ++ Decimal.fixed 2 s.mean ++
  ", max/min " ++ Decimal.fixed 2 s.ratio ++
  ", shares " ++ Decimal.fixed 4 s.leastShare ++ ".." ++ Decimal.fixed 4 s.mostShare ++ "\n"

namespace Usage

def sideText (name : String) (u : SideUsage) : String :=
  Text.join " "
    [Text.left 18 name, Text.rightNat 7 u.used, Text.rightNat 6 u.total,
      Text.rightFixed 9 3 u.leastUsed, Text.rightFixed 9 3 u.mostUsed,
      Text.rightFixed 9 3 u.leastUnique, Text.rightFixed 9 3 u.mostUnique]

/-- The extremes of problem sizes, unless there is no problem. -/
def extremesText (u : Usage) : List String :=
  match u.smallest, u.largest with
  | some (p, least), some (q, most) =>
    [s!"Solutions per problem: min {least} (problem {p}), max {most} (problem {q})"]
  | _, _ => []

def text (u : Usage) : String :=
  Text.unlines <|
    [s!"Dataset of {u.problems} problems with {u.solutions} solutions"] ++ extremesText u ++
    ["Side                  Used  Total  Min used  Max used  Min uniq  Max uniq",
      sideText "similar left" u.similarLeft, sideText "similar right" u.similarRight,
      sideText "dissimilar left" u.dissimilarLeft, sideText "dissimilar right" u.dissimilarRight]

end Usage

/-- The section of a split, its parts separated by empty lines. -/
def SplitStatistics.text (s : SplitStatistics) (c : Corpus) : String :=
  s!"Statistics of the {s.split.name} dataset: {s.distribution.samples} samples\n\n" ++
  Text.join "\n" ([s.distribution.text c] ++ (s.skew.map Skew.text).toList ++ [s.usage.text])

end PairDatasets
