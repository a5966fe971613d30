import PairDatasets.CommandLine.Value
import PairDatasets.Corpus.Config

/-!
Options for the limits of a corpus, which every command takes.
-/
namespace PairDatasets

/-- The limits that are given. -/
structure Limits where
  minTokens : Option Nat := none
  maxTokens : Option Nat := none
  minSolutions : Option Nat := none
  maxProblems : Option Nat := none
  deriving DecidableEq, Repr

namespace Limits

/-- Every limit that is given replaces that of the description. -/
def apply (l : Limits) (c : CorpusConfig) : CorpusConfig :=
  { c with
    minTokens := l.minTokens.getD c.minTokens
    maxTokens := l.maxTokens <|> c.maxTokens
    minSolutions := l.minSolutions.getD c.minSolutions
    maxProblems := l.maxProblems <|> c.maxProblems }

/-- The options, for a command that keeps the limits somewhere in its own options. -/
def opts {O : Type} (update : (Limits → Limits) → O → O) : List (Opt O) :=
  [.reading "short-code-th" "SHORT_CODE_TH" Value.number fun n =>
      update fun l => { l with minTokens := some n },
    .reading "long-code-th" "LONG_CODE_TH" Value.positive fun n =>
      update fun l => { l with maxTokens := some n },
    .reading "min-n-solutions" "MIN_N_SOLUTIONS" Value.number fun n =>
      update fun l => { l with minSolutions := some n },
    .reading "max-n-problems" "MAX_N_PROBLEMS" Value.positive fun n =>
      update fun l => { l with maxProblems := some n }]

end Limits
end PairDatasets
