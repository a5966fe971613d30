import PairDatasets.Corpus.Config
import PairDatasets.Features.Encoding
import PairDatasets.Partition.Strategy
import PairDatasets.Random.Seeds
import PairDatasets.Sampling.Draw

/-!
The description of a run: which corpus, how it is divided, how many pairs are drawn, how they are
encoded, and where reports go.
-/
namespace PairDatasets

/-- How many pairs each split gets, and of which kind. -/
structure PairConfig where
  training : Nat := 20000
  validation : Nat := 5000
  test : Nat := 5000
  /-- The share of similar pairs that is aimed at in every split. -/
  similarFraction : Float := 0.5
  labelMode : LabelMode := .binary
  deriving DecidableEq, Inhabited

namespace PairConfig

/-- The number of pairs of a split. -/
def size (c : PairConfig) : Split → Nat
  | .training => c.training
  | .validation => c.validation
  | .test => c.test

def check (c : PairConfig) : Except DatasetError Unit :=
  if isFraction c.similarFraction then .ok ()
  else .error (.configuration (.similarFraction c.similarFraction))

end PairConfig

/-- Everything a run needs to know. -/
structure DatasetConfig where
  corpus : CorpusConfig := {}
  partition : Strategy := default
  pairs : PairConfig := {}
  encoding : Encoding := .bag
  /-- Added to every seed. -/
  seedOffset : UInt64 := Seeds.defaultOffset
  /-- Slots of the table from which problems of dissimilar pairs are drawn. -/
  slots : Nat := defaultSlots
  /-- Where reports are written, if at all. -/
  reports : Option String := some "./dataset_statistics"
  /-- Whether the pairs are written too. -/
  dumpSamples : Bool := false
  deriving DecidableEq, Inhabited

namespace DatasetConfig

/-- Refuse values that no run can start from: of the corpus first, then of the pairs. -/
def check (c : DatasetConfig) : Except DatasetError Unit := do
  c.corpus.check
  c.pairs.check
  if c.slots = 0 then .error (.configuration .noSlots) else .ok ()

end DatasetConfig
end PairDatasets
