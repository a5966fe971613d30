import PairDatasets.CommandLine.Build
import PairDatasets.CommandLine.Summary

/-!
The commands by name.
-/
namespace PairDatasets

inductive Command where
  | buildPairs
  | corpusSummary
  deriving DecidableEq, Repr

namespace Command

def named? : String → Option Command
  | "build_pairs" => some buildPairs
  | "corpus_summary" => some corpusSummary
  | _ => none

def run : Command → List String → CommandJob Unit
  | buildPairs => build
  | corpusSummary => summary

end Command
end PairDatasets
