import PairDatasets.Statistics.Distribution
import PairDatasets.Statistics.Skew
import PairDatasets.Statistics.Usage

/-!
All statistics of the pairs of one split.
-/
namespace PairDatasets

structure SplitStatistics where
  split : Split
  distribution : Distribution
  /-- Nothing if no problem occurs in a pair. -/
  skew : Option Skew
  usage : Usage
  deriving DecidableEq

namespace SplitStatistics

/-- The statistics of pairs drawn from a group. Its labels are taken to follow its first one. -/
def ofPairs (split : Split) (pairs : List Pair) (group : Group) : SplitStatistics :=
  let distribution := Distribution.ofPairs group.start group.problemCount pairs
  { split := split
    distribution := distribution
    skew := Skew.ofCounts? distribution.crossCounts
    usage := Usage.ofPairs pairs group }

/-- The statistics of a group whose range of labels can be counted. -/
def measure (split : Split) (pairs : List Pair) (group : Group) :
    Except DatasetError SplitStatistics := do
  Distribution.checkRange group.start group.problemCount
  return ofPairs split pairs group

end SplitStatistics

end PairDatasets
