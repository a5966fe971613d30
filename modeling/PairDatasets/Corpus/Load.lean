import PairDatasets.Corpus.Candidates
import PairDatasets.Corpus.Lengths
import PairDatasets.Corpus.Reading
import PairDatasets.Decimal.Fixed
import PairDatasets.Plain

/-!
Loading a corpus: what the readings keep becomes the corpus, everything else its report. The report
and the events are computed from the readings alone.
-/
namespace PairDatasets
open Plain

/-- What the readings left out. Requested problems that the dataset lacks are errors too. -/
def LoadReport.ofReadings (c : CorpusConfig) (absent : List String) (readings : List Reading) :
    LoadReport where
  tooShort := Reading.collect Reading.tooShort readings
  tooLong := Reading.collect Reading.tooLong readings
  unreadable := (readings.filter fun r => !r.readable).map Reading.problem
  underpopulated := (readings.filter (Reading.underpopulated c)).map fun r =>
    (r.problem, r.kept.length)
  rejectedLines := (readings.map fun r => r.rejected.length).sum
  badData := !absent.isEmpty || readings.any Reading.faulty

/-- Events about a report: errors in the data, and problems that lost solutions. -/
def LoadReport.events (r : LoadReport) : List Event :=
  let bad : List Event :=
    if r.badData then [⟨.warn, "[solution_pairs:corpus] there are errors in data samples", []⟩]
    else []
  let lost (m : OmittedByProblem) (what : String) : List Event :=
    if m.isEmpty then []
    else [⟨.info, s!"[solution_pairs:corpus] {m.length} problems have too {what} solutions", []⟩]
  bad ++ lost r.tooShort "short" ++ lost r.tooLong "long"

namespace Corpus

/-- Two problems at least, with two solutions each on average. -/
def checkSize (problems : List (String × List Solution)) : Except DatasetError Unit :=
  let solutions := (problems.map fun (_, ss) => ss.length).sum
  if problems.length < 2 ∨ solutions < 2 * problems.length then
    .error (.corpusTooSmall solutions problems.length)
  else .ok ()

/-- Sort the solutions of each problem by name and shuffle them, with one generator for all. -/
def orderSolutions : List (String × List Solution) → Generator → List (String × List Solution)
  | [], _ => []
  | (name, solutions) :: rest, g =>
    let (order, g) := g.shuffle (solutions.mergeSort fun a b => a.name ≤ b.name)
    (name, order) :: orderSolutions rest g

/-- The corpus of the accepted readings. -/
def ofReadings (info : DatasetInfo) (c : CorpusConfig) (seeds : Seeds) (absent : List String)
    (readings : List Reading) : Except DatasetError Corpus := do
  let problems := (readings.filter (Reading.accepted c)).map fun r => (r.problem, r.kept)
  checkSize problems
  let corpus := ofProblems info.tokenSet info.vocabulary
    (orderSolutions problems (seeds.generator .solutionOrder))
  .ok { corpus with report := LoadReport.ofReadings c absent readings }

/-- One event for each problem, and one for the whole. -/
def events (c : Corpus) : List Event :=
  c.problems.map (fun p =>
    let l := Lengths.ofProblem p
    ⟨.info, "[solution_pairs:corpus] problem loaded",
      [("problem", p.name), ("label", toString p.label), ("solutions", toString l.solutions),
        ("mean_len", Decimal.fixed 1 l.mean), ("min_len", toString l.shortest),
        ("max_len", toString l.longest), ("shortest", l.shortestName),
        ("longest", l.longestName)]⟩) ++
  [⟨.info, s!"[solution_pairs:corpus] loaded {c.solutionCount} code solutions for " ++
    s!"{c.problemCount} problems; longest code has {c.longest} tokens", []⟩]

/-- Load a corpus. -/
def load (t : FileTree) (c : CorpusConfig) (seeds : Seeds) : Logged DatasetError Corpus := do
  c.check
  if !t.isDirectory c.directory then throw (.missing .dataset c.directory)
  let info ← DatasetInfo.read t c.directory
  Logged.emit [⟨.info, s!"[solution_pairs:corpus] loading dataset tokenized with {info.tokenSet} " ++
    s!"token set having {info.vocabulary} tokens", []⟩]
  let found ← Candidates.find t c
  Logged.emit (found.events c)
  let names ← Candidates.select c seeds found.names
  let readings := names.map (Reading.ofProblem t c info.vocabulary)
  Logged.emit (readings.flatMap (Reading.events c))
  let corpus ← ofReadings info c seeds found.absent readings
  Logged.emit (corpus.report.events ++ corpus.events)
  return corpus

@[simp] theorem fst_orderSolutions (ps : List (String × List Solution)) (g : Generator) :
    (orderSolutions ps g).map (·.1) = ps.map (·.1) := by
  induction ps generalizing g with
  | nil => rfl
  | cons p ps ih => simp [orderSolutions, ih]

end Corpus
end PairDatasets
