import PairDatasets.CommandLine.Grammar
import PairDatasets.Job

/-!
What a command may end with.
-/
namespace PairDatasets

inductive CommandError where
  | usage (e : UsageError)
  | dataset (e : DatasetError)
  | noDataset
  | problemList (path : String) (e : FileError)
  /-- A count where only a part of the solutions can be set aside. -/
  | testCount (count : Nat)

def CommandError.message : CommandError → String
  | usage e => e.message
  | dataset e => e.message
  | noDataset => "either --dataset-dir or --config is required"
  | problemList path e => s!"cannot read problem list {path}: {e.message}"
  | testCount count => s!"balanced splits take a test fraction below 1, got {count}"

/-- Work that a command does. -/
abbrev CommandJob := ExceptT CommandError (StateM Session)

namespace CommandJob

def ofJob {α : Type} (job : Job α) : CommandJob α := ExceptT.adapt .dataset job

def liftExcept {α : Type} : Except CommandError α → CommandJob α
  | .ok a => pure a
  | .error e => throw e

/-- Print lines. -/
def print (lines : List String) : CommandJob Unit :=
  modify fun s => { s with printed := s.printed ++ lines }

/-- Read the arguments and go on with the options; for help, list them instead. -/
def withOptions {O : Type} (opts : List (Opt O)) (args : List String) (start : O)
    (work : O → CommandJob Unit) : CommandJob Unit :=
  match Scan.run opts args { options := start } with
  | .error e => throw (.usage e)
  | .ok none => print ("Options:" :: opts.map fun o => "  " ++ o.text)
  | .ok (some options) => work options

end CommandJob

end PairDatasets
