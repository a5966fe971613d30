/-!
The three data sets of a run.
-/
namespace PairDatasets

inductive Split where
  | training
  | validation
  | test
  deriving DecidableEq, Repr

namespace Split

/-- Every split, in the order in which they are produced. -/
def all : List Split := [training, validation, test]

def name : Split → String
  | training => "training"
  | validation => "validation"
  | test => "test"

theorem mem_all (s : Split) : s ∈ all := by cases s <;> decide

end Split
end PairDatasets
