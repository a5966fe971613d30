import PairDatasets.Job
import PairDatasets.Partition.Divide
import PairDatasets.Report.Evaluation
import PairDatasets.Report.Listing
import PairDatasets.Report.Samples

/-!
The files of a report directory. The directory is made when a file is written.
-/
namespace PairDatasets.Report

/-- Write a text under the directory; the result is its path. -/
def writeText (dir file text : String) : Job String := do
  Job.makeDirectories dir
  let path := Path.join dir file
  Job.write .file path text
  Job.emit [⟨.debug, "[solution_pairs:reports] report written", [("path", path)]⟩]
  return path

/-- Write the listings of too short and too long solutions. -/
def writeOmitted (dir : String) (r : LoadReport) : Job Unit := do
  let _ ← writeText dir "TooShortCode.lst" (Listing.text r.tooShort)
  let _ ← writeText dir "TooLongCode.lst" (Listing.text r.tooLong)

/-- The names of labels, one on a line; labels without a problem are passed over. -/
def namesText (c : Corpus) (labels : List Nat) : String :=
  Text.unlines (labels.filterMap c.problemName?)

/-- The problem lists of a partition: the file of each and its labels. -/
def problemLists (c : Corpus) (p : Partition) : List (String × List Nat) :=
  [("all_problems.txt", List.range c.problemCount),
    ("train_valid_problems.txt", p.seenLabels),
    ("training_problems.txt", p.training.labels)] ++
  (p.validation.map fun g => ("validation_problems.txt", g.labels)).toList ++
  (p.test.map fun g => ("test_problems.txt", g.labels)).toList

/-- Write the problem lists of a partition. -/
def writeProblemLists (dir : String) (c : Corpus) (p : Partition) : Job Unit := do
  for (file, labels) in problemLists c p do
    let _ ← writeText dir file (namesText c labels)

/-- The file of the pairs of a split. -/
def samplesFile : Split → String
  | .training => "train_samples.csv"
  | .validation => "val_samples.csv"
  | .test => "test_samples.csv"

/-- Write pairs with their names. A pair without its solutions is an error, and the file ends before
it. -/
def writeSamples (dir : String) (c : Corpus) (split : Split) (pairs : List Pair) :
    Job String := do
  Job.makeDirectories dir
  let path := Path.join dir (samplesFile split)
  let (rows, missing) := Samples.records c pairs
  Job.write (fun e => .report (.file e)) path (Samples.text rows)
  match missing with
  | some p => throw (.report (.missingSolution p))
  | none =>
    Job.emit [⟨.info, "[solution_pairs:reports] samples written",
      [("split", split.name), ("samples", toString pairs.length), ("path", path)]⟩]
    return path

/-- The file of the sections of a split; validation shares that of training. -/
def statisticsFile : Split → String
  | .training | .validation => "TrainDatasetStatistics.lst"
  | .test => "TestDatasetStatistics.lst"

/-- Sections are written in this order. -/
def sectionRank : Split → Nat
  | .validation => 0
  | .training => 1
  | .test => 2

/-- Texts by file, in the order in which the files were begun. -/
abbrev Texts := List (String × String)

/-- Add a text to a file: after an empty line if the file has text already, at the end if it is new. -/
def Texts.add (ts : Texts) (file text : String) : Texts :=
  match ts with
  | [] => [(file, text)]
  | (f, begun) :: rest =>
    if f = file then (f, if begun.isEmpty then text else begun ++ "\n" ++ text) :: rest
    else (f, begun) :: Texts.add rest file text

/-- The texts of the statistics files; a file without sections is not begun. -/
def statisticsTexts (c : Corpus) (statistics : List SplitStatistics) : Texts :=
  (statistics.mergeSort fun s s' => sectionRank s.split ≤ sectionRank s'.split).foldl
    (fun ts s => ts.add (statisticsFile s.split) (s.text c)) []

/-- Write the statistics of splits; the result is the paths. -/
def writeStatistics (dir : String) (c : Corpus) (statistics : List SplitStatistics) :
    Job (List String) :=
  (statisticsTexts c statistics).mapM fun (file, text) => writeText dir file text

/-- Write an evaluation with up to `top` problems in each ranking. -/
def writeEvaluation (dir file : String) (e : Evaluation) (c : Corpus) (top : Nat) : Job String :=
  writeText dir file (e.text c top)

end PairDatasets.Report
