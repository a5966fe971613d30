import PairDatasets.CommandLine.Limits
import PairDatasets.CommandLine.Outcome
import PairDatasets.Config.Reader
import PairDatasets.Run

/-!
The command that builds pair datasets. Options replace values of the description it starts from,
and leave all others as they are.
-/
namespace PairDatasets

/-- The names of strategies, without their amounts. -/
inductive StrategyKind where
  | disjoint
  | sameProblems
  | balanced
  deriving DecidableEq, Repr

inductive EncodingKind where
  | bag
  | sequence
  | oneHot
  deriving DecidableEq, Repr

def EncodingKind.encoding (length : Option Nat) : EncodingKind → Encoding
  | bag => .bag
  | sequence => .sequence length
  | oneHot => .oneHot length

namespace Strategy

def kind : Strategy → StrategyKind
  | disjointProblems .. => .disjoint
  | sameProblems .. => .sameProblems
  | balanced .. => .balanced

def validation : Strategy → Float
  | disjointProblems _ v => v
  | sameProblems _ v => v
  | balanced _ v => v

/-- The test amount; a fraction of solutions is read as one of problems. -/
def testAmount : Strategy → Except DatasetError TestAmount
  | disjointProblems t _ => .ok t
  | sameProblems t _ => .ok t
  | balanced f _ => TestAmount.ofNumber f

end Strategy

namespace StrategyKind

/-- A strategy of a kind. A balanced one sets aside a part of the solutions, never a count. -/
def strategy (kind : StrategyKind) (test : TestAmount) (validation : Float) :
    Except CommandError Strategy :=
  match kind, test with
  | disjoint, _ => .ok (.disjointProblems test validation)
  | sameProblems, _ => .ok (.sameProblems test validation)
  | balanced, .none => .ok (.balanced 0.0 validation)
  | balanced, .fraction f => .ok (.balanced f validation)
  | balanced, .count n => .error (.testCount n)

end StrategyKind

/-- The options that are given. -/
structure BuildOptions where
  config : Option String := none
  dataset : Option String := none
  strategy : Option StrategyKind := none
  test : Option Float := none
  validation : Option Float := none
  trainingSize : Option Nat := none
  validationSize : Option Nat := none
  testSize : Option Nat := none
  similarFraction : Option Float := none
  limits : Limits := {}
  problemList : Option String := none
  encoding : Option EncodingKind := none
  maxLength : Option Nat := none
  bipolar : Bool := false
  seedOffset : Option Nat := none
  slots : Option Nat := none
  reports : Option String := none
  noReports : Bool := false
  dumpSamples : Bool := false
  deriving DecidableEq

namespace BuildOptions

def opts : List (Opt BuildOptions) :=
  [.reading "config" "PATH" Value.path fun v o => { o with config := some v },
    .reading "dataset-dir" "DIR" Value.path fun v o => { o with dataset := some v },
    .reading "strategy" "STRATEGY"
      (Value.choice [("disjoint", .disjoint), ("same-problems", .sameProblems),
        ("balanced", .balanced)]) fun v o => { o with strategy := some v },
    .reading "test" "AMOUNT" Value.double fun v o => { o with test := some v },
    .reading "validation-fraction" "VALIDATION_FRACTION" Value.fraction fun v o =>
      { o with validation := some v },
    .reading "train-size" "TRAIN_SIZE" Value.number fun v o => { o with trainingSize := some v },
    .reading "validation-size" "VALIDATION_SIZE" Value.number fun v o =>
      { o with validationSize := some v },
    .reading "test-size" "TEST_SIZE" Value.number fun v o => { o with testSize := some v },
    .reading "similar-fraction" "SIMILAR_FRACTION" Value.fraction fun v o =>
      { o with similarFraction := some v },
    .reading "problem-list" "PATH" Value.path fun v o => { o with problemList := some v },
    .reading "encoding" "ENCODING"
      (Value.choice [("bag", .bag), ("sequence", .sequence), ("one-hot", .oneHot)])
      fun v o => { o with encoding := some v },
    .reading "max-len" "MAX_LEN" Value.positive fun v o => { o with maxLength := some v },
    .flag "bipolar" fun o => { o with bipolar := true },
    .reading "seed-offset" "SEED_OFFSET" Value.number fun v o => { o with seedOffset := some v },
    .reading "selection-size" "SELECTION_SIZE" Value.positive fun v o =>
      { o with slots := some v },
    .reading "report-dir" "DIR" Value.path fun v o => { o with reports := some v },
    Opt.excluding (.flag "no-reports" fun o => { o with noReports := true }) ["report-dir"],
    .flag "dump-samples" fun o => { o with dumpSamples := true }] ++
  Limits.opts fun f o => { o with limits := f o.limits }

/-- The description to start from. -/
def base (t : FileTree) (o : BuildOptions) : Except CommandError DatasetConfig :=
  match o.config with
  | none => .ok {}
  | some path => (DatasetConfig.read t path).mapError .dataset

/-- The dataset directory; without a description it must be given. -/
def directory (o : BuildOptions) (c : DatasetConfig) : Except CommandError String :=
  match o.dataset, o.config with
  | some dir, _ => .ok dir
  | none, some _ => .ok c.corpus.directory
  | none, none => .error .noDataset

/-- The names in a file, one on each line. -/
def problemNames (t : FileTree) (o : BuildOptions) (c : DatasetConfig) :
    Except CommandError (Option (List String)) :=
  match o.problemList with
  | none => .ok c.corpus.problemList
  | some path =>
    match t.readText path with
    | .error e => .error (.problemList path e)
    | .ok text => .ok (some (((Text.lines text).map Text.trim).filter fun l => !l.isEmpty))

/-- Whether an option names anything of the strategy. -/
def dividesAnew (o : BuildOptions) : Bool :=
  o.strategy.isSome || o.test.isSome || o.validation.isSome

/-- The strategy. A strategy that is named brings the default share of validation. -/
def partition (o : BuildOptions) (current : Strategy) : Except CommandError Strategy :=
  if !o.dividesAnew then .ok current
  else do
    let validation := o.validation.getD
      (if o.strategy.isSome then Strategy.defaultValidation else current.validation)
    let kept ← current.testAmount.mapError CommandError.dataset
    let test ← match o.test with
      | none => .ok kept
      | some x => (TestAmount.ofNumber x).mapError CommandError.dataset
    (o.strategy.getD current.kind).strategy test validation

def pairs (o : BuildOptions) (c : PairConfig) : PairConfig where
  training := o.trainingSize.getD c.training
  validation := o.validationSize.getD c.validation
  test := o.testSize.getD c.test
  similarFraction := o.similarFraction.getD c.similarFraction
  labelMode := if o.bipolar then .bipolar else c.labelMode

/-- Where reports go. -/
def reportDirectory (o : BuildOptions) (c : DatasetConfig) : Option String :=
  if o.noReports then none else o.reports <|> c.reports

/-- The description of the run. -/
def config? (t : FileTree) (o : BuildOptions) : Except CommandError DatasetConfig := do
  let base ← o.base t
  let dir ← o.directory base
  let problems ← o.problemNames t base
  let partition ← o.partition base.partition
  let result : DatasetConfig :=
    { corpus := { o.limits.apply base.corpus with directory := dir, problemList := problems }
      partition := partition
      pairs := o.pairs base.pairs
      encoding := (o.encoding.map (EncodingKind.encoding o.maxLength)).getD base.encoding
      seedOffset := (o.seedOffset.map Nat.toUInt64).getD base.seedOffset
      slots := o.slots.getD base.slots
      reports := o.reportDirectory base
      dumpSamples := base.dumpSamples || o.dumpSamples }
  (result.check).mapError .dataset
  return result

end BuildOptions

/-- One line for a corpus. -/
def Corpus.buildLine (c : Corpus) : String :=
  s!"Corpus: {c.problemCount} problems, {c.solutionCount} solutions, token set {c.tokenSet} " ++
    s!"({c.vocabulary} tokens), longest code {c.longest} tokens"

/-- One line for a split. -/
def SplitDataset.line (d : SplitDataset) : String :=
  Text.right 10 d.split.name ++ ": " ++ Text.rightNat 6 d.drawn.size ++
    s!" pairs ({d.drawn.similar} similar, {d.drawn.dissimilar} dissimilar, " ++
    Decimal.fixed 3 d.drawn.similarFraction ++ " similar), features " ++ d.assembled.features.text

namespace Command

/-- Build datasets and print what came out. -/
def buildWith (options : BuildOptions) : CommandJob Unit := do
  let config ← CommandJob.liftExcept (options.config? (← get).files)
  let data ← CommandJob.ofJob config.build
  CommandJob.print ([data.corpus.buildLine] ++ data.splits.map SplitDataset.line)
  CommandJob.print (config.reports.map ("Reports written to " ++ ·)).toList

def build (args : List String) : CommandJob Unit :=
  CommandJob.withOptions BuildOptions.opts args {} buildWith

end Command
end PairDatasets
