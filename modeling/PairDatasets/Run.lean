import PairDatasets.Config.Basic
import PairDatasets.Corpus.Load
import PairDatasets.Features.Assembly
import PairDatasets.Report.Writer
import PairDatasets.Sampling.Capacity

/-!
One run: load the corpus, divide it, draw and encode the pairs of every split, and write reports.
-/
namespace PairDatasets

/-- The generator purpose for the pairs of a split. -/
def Split.purpose : Split → Purpose
  | .training => .trainingPairs
  | .validation => .validationPairs
  | .test => .testPairs

/-- The pairs of a split and the arrays made of them. -/
structure SplitDataset where
  split : Split
  drawn : PairSet
  assembled : Assembled
  deriving DecidableEq

/-- What a run produces. -/
structure Datasets where
  corpus : Corpus
  partition : Partition
  /-- The splits that have a group, in the order of all splits. -/
  splits : List SplitDataset
  seeds : Seeds
  deriving DecidableEq

namespace Datasets

def split? (d : Datasets) (s : Split) : Option SplitDataset := d.splits.find? (·.split = s)

/-- Evaluate the scores of a model for the pairs of a split. -/
def evaluate (d : Datasets) (mode : LabelMode) (s : Split) (scores : List Float) :
    Except DatasetError Evaluation :=
  match d.split? s with
  | none => .error (.configuration (.noDataset s))
  | some data => Evaluation.ofScores mode scores data.assembled.labels data.drawn.pairs

end Datasets

namespace DatasetConfig

def seeds (c : DatasetConfig) : Seeds := ⟨c.seedOffset⟩

/-- How the number of pairs of a split compares with the number of different ones. -/
def capacityEvent (c : DatasetConfig) (split : Split) (capacity : Capacity) : Event :=
  let requested := c.pairs.size split
  if capacity.total < requested then
    ⟨.warn, "[solution_pairs:pipeline] more pairs requested than distinct pairs exist",
      [("split", split.name), ("requested", withCommas requested),
        ("distinct", withCommas capacity.total),
        ("reuse", reuseFactor requested capacity.total)]⟩
  else
    ⟨.debug, "distinct pair capacity",
      [("split", split.name), ("similar", withCommas capacity.similar),
        ("dissimilar", withCommas capacity.dissimilar)]⟩

/-- Draw the pairs of a split with a generator of their own. -/
def drawSplit (c : DatasetConfig) (split : Split) (group : Group) :
    Logged DatasetError PairSet := do
  let size := c.pairs.size split
  let (outcome, _) := group.drawPairs c.slots size c.pairs.similarFraction
    (c.seeds.generator split.purpose)
  Logged.emit (group.drawEvents size c.pairs.similarFraction outcome)
  let drawn ← outcome
  Logged.emit [⟨.info, "[solution_pairs:pipeline] split sampled",
    [("split", split.name), ("problems", toString group.problemCount),
      ("solutions", toString group.solutionCount), ("similar", toString drawn.similar),
      ("dissimilar", toString drawn.dissimilar)]⟩]
  return drawn

/-- Draw, encode and write the pairs of a split. -/
def buildSplit (c : DatasetConfig) (corpus : Corpus) (split : Split) (group : Group) :
    Job SplitDataset := do
  let drawn ← Job.ofLogged (c.drawSplit split group)
  let assembled ← corpus.assemble c.encoding c.pairs.labelMode drawn.pairs
  match c.reports with
  | some dir =>
    if c.dumpSamples then
      let _ ← Report.writeSamples dir corpus split drawn.pairs
  | none => pure ()
  return ⟨split, drawn, assembled⟩

/-- Build every split that has a group. -/
def buildSplits (c : DatasetConfig) (corpus : Corpus) (p : Partition) :
    List Split → Job (List SplitDataset)
  | [] => return []
  | split :: rest =>
    match p.group? split with
    | none => do
      if 0 < c.pairs.size split then
        Job.emit [⟨.debug, "no group for split; skipping pair generation",
          [("split", split.name)]⟩]
      buildSplits c corpus p rest
    | some group => do
      let data ← c.buildSplit corpus split group
      return data :: (← buildSplits c corpus p rest)

/-- The statistics of every split. -/
def statistics (p : Partition) (splits : List SplitDataset) : List SplitStatistics :=
  splits.filterMap fun d =>
    (p.group? d.split).map fun g => SplitStatistics.ofPairs d.split d.drawn.pairs g

/-- The whole run. -/
def build (c : DatasetConfig) : Job Datasets := do
  c.check
  let corpus ← Job.ofLogged (Corpus.load (← Job.files) c.corpus c.seeds)
  let partition ← corpus.divide c.partition c.seeds
  match c.reports with
  | some dir =>
    Report.writeOmitted dir corpus.report
    Report.writeProblemLists dir corpus partition
  | none => pure ()
  Job.emit ((Capacity.ofPartition partition).map fun (split, capacity) =>
    c.capacityEvent split capacity)
  let splits ← c.buildSplits corpus partition Split.all
  match c.reports with
  | some dir => let _ ← Report.writeStatistics dir corpus (statistics partition splits)
  | none => pure ()
  return ⟨corpus, partition, splits, c.seeds⟩

end DatasetConfig
end PairDatasets
