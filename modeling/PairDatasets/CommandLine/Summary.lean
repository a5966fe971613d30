import PairDatasets.CommandLine.Limits
import PairDatasets.CommandLine.Outcome
import PairDatasets.Corpus.Load
import PairDatasets.Report.Writer
import PairDatasets.Sampling.Capacity

/-!
The command that sums up a corpus: what was loaded, what was left out, how many pairs there are, and
the largest problems.
-/
namespace PairDatasets

structure SummaryOptions where
  dataset : Option String := none
  limits : Limits := {}
  seedOffset : Nat := Seeds.defaultOffset.toNat
  /-- How many problems are listed. -/
  top : Nat := 10
  reports : Option String := none
  deriving DecidableEq, Repr

namespace SummaryOptions

def datasetOpt : Opt SummaryOptions :=
  .reading "dataset-dir" "DIR" Value.path fun v o => { o with dataset := some v }

def opts : List (Opt SummaryOptions) :=
  [datasetOpt,
    .reading "seed-offset" "SEED_OFFSET" Value.number fun v o => { o with seedOffset := v },
    .reading "top" "TOP" Value.positive fun v o => { o with top := v },
    .reading "report-dir" "DIR" Value.path fun v o => { o with reports := some v }] ++
  Limits.opts fun f o => { o with limits := f o.limits }

/-- The directory, which must be given. -/
def directory (o : SummaryOptions) : Except CommandError String :=
  match o.dataset with
  | some dir => .ok dir
  | none => .error (.usage (.missing [datasetOpt.text]))

end SummaryOptions

namespace Corpus

/-- What was loaded and left out, and how many pairs there are. -/
def summaryLines (c : Corpus) : List String :=
  let capacity := Capacity.ofCorpus c
  [s!"Token set {c.tokenSet} with {c.vocabulary} tokens: {c.problemCount} problems, " ++
      s!"{c.solutionCount} solutions, longest code {c.longest} tokens",
    s!"Omitted: {c.report.omitted} short or long solutions, " ++
      s!"{c.report.unreadable.length} unreadable problems, " ++
      s!"{c.report.underpopulated.length} underpopulated problems, " ++
      s!"{c.report.rejectedLines} rejected lines",
    s!"Distinct ordered pairs: {withCommas capacity.similar} similar, " ++
      s!"{withCommas capacity.dissimilar} dissimilar"]

def problemLine (p : Problem) : String :=
  let l := Lengths.ofProblem p
  Text.join " " [Text.left 16 p.name, Text.rightNat 9 l.solutions, Text.rightFixed 9 1 l.mean,
    Text.rightNat 8 l.shortest, Text.rightNat 8 l.longest]

/-- The problems with the most solutions; of equal ones the smaller label comes first. -/
def largestLines (c : Corpus) (top : Nat) : List String :=
  let order := c.problems.mergeSort fun a b => b.size ≤ a.size
  ["", "Problem          Solutions  Mean len  Min len  Max len"] ++
  (order.take top).map problemLine ++
  if top < order.length then [s!"... {order.length - top} more problems"] else []

end Corpus

namespace Command

/-- Load a corpus and print its summary. -/
def summaryWith (options : SummaryOptions) : CommandJob Unit := do
  let dir ← CommandJob.liftExcept options.directory
  let config := options.limits.apply { directory := dir }
  let corpus ← CommandJob.ofJob do
    Job.ofLogged (Corpus.load (← Job.files) config ⟨options.seedOffset.toUInt64⟩)
  CommandJob.print (corpus.summaryLines ++ corpus.largestLines options.top)
  match options.reports with
  | some dir =>
    CommandJob.ofJob (Report.writeOmitted dir corpus.report)
    CommandJob.print ["Wrong-length listings written to " ++ dir]
  | none => return

def summary (args : List String) : CommandJob Unit :=
  CommandJob.withOptions SummaryOptions.opts args {} summaryWith

end Command
end PairDatasets
