import PairDatasets.Config.Basic
import PairDatasets.Json.Reader
import PairDatasets.Json.Record

/-!
The description of a run as JSON. What is left out has its default; a strategy and an encoding are
named, with their own fields, none of which may be left out but a length.
-/
namespace PairDatasets

namespace TestAmount

def ofJson? (j : Json) : Option TestAmount :=
  match j.variant? with
  | some ("None", content) => if Json.isBare content then some .none else Option.none
  | some ("Fraction", content) => (Json.required? Json.double? content).map .fraction
  | some ("Count", content) => (Json.required? Json.nat64? content).map .count
  | _ => Option.none

end TestAmount

namespace Strategy

/-- Two fields of a strategy. -/
def pair? {α : Type} (first second : String) (read : Json → Option α) (content : Option Json) :
    Option (α × Float) := do
  let [a, f] ← (← content).record? [first, second] false | none
  return (← Json.required? read a, ← Json.required? Json.double? f)

def ofJson? (j : Json) : Option Strategy :=
  match j.variant? with
  | some ("DisjointProblems", content) =>
    (pair? "test" "validation_fraction" TestAmount.ofJson? content).map fun (t, v) =>
      .disjointProblems t v
  | some ("SameProblems", content) =>
    (pair? "test" "validation_fraction" TestAmount.ofJson? content).map fun (t, v) =>
      .sameProblems t v
  | some ("Balanced", content) =>
    (pair? "test_fraction" "validation_fraction" Json.double? content).map fun (t, v) =>
      .balanced t v
  | _ => none

end Strategy

namespace Encoding

/-- The only field of an encoding, which may be left out in an object. -/
def length? (content : Option Json) : Option (Option Nat) := do
  let [length] ← (← content).record? ["max_len"] false | none
  Json.withDefault? (Json.nullable? Json.nat64?) none length

def ofJson? (j : Json) : Option Encoding :=
  match j.variant? with
  | some ("BagOfTokens", content) => if Json.isBare content then some .bag else none
  | some ("PaddedSequence", content) => (length? content).map .sequence
  | some ("OneHot", content) => (length? content).map .oneHot
  | _ => none

end Encoding

def LabelMode.ofJson? (j : Json) : Option LabelMode :=
  match j.variant? with
  | some ("Binary", content) => if Json.isBare content then some .binary else none
  | some ("Bipolar", content) => if Json.isBare content then some .bipolar else none
  | _ => none

def CorpusConfig.ofJson? (j : Json) : Option CorpusConfig := do
  let [dir, short, long, solutions, problems, list] ← j.record?
    ["dataset_dir", "short_code_th", "long_code_th", "min_n_solutions", "max_n_problems",
      "problem_list"] true | none
  let base : CorpusConfig := {}
  return {
    directory := ← Json.withDefault? Json.stringText? base.directory dir
    minTokens := ← Json.withDefault? Json.nat64? base.minTokens short
    maxTokens := ← Json.withDefault? (Json.nullable? Json.nat64?) base.maxTokens long
    minSolutions := ← Json.withDefault? Json.nat64? base.minSolutions solutions
    maxProblems := ← Json.withDefault? (Json.nullable? Json.nat64?) base.maxProblems problems
    problemList :=
      ← Json.withDefault? (Json.nullable? (Json.list? Json.stringText?)) base.problemList list }

def PairConfig.ofJson? (j : Json) : Option PairConfig := do
  let [training, validation, test, similar, mode] ← j.record?
    ["train_size", "validation_size", "test_size", "similar_fraction", "label_mode"] true | none
  let base : PairConfig := {}
  return {
    training := ← Json.withDefault? Json.nat64? base.training training
    validation := ← Json.withDefault? Json.nat64? base.validation validation
    test := ← Json.withDefault? Json.nat64? base.test test
    similarFraction := ← Json.withDefault? Json.double? base.similarFraction similar
    labelMode := ← Json.withDefault? LabelMode.ofJson? base.labelMode mode }

namespace DatasetConfig

def ofJson? (j : Json) : Option DatasetConfig := do
  let [corpus, partition, pairs, encoding, offset, slots, reports, dump] ← j.record?
    ["corpus", "partition", "pairs", "encoding", "seed_offset", "selection_size", "report_dir",
      "dump_samples"] true | none
  let base : DatasetConfig := {}
  return {
    corpus := ← Json.withDefault? CorpusConfig.ofJson? base.corpus corpus
    partition := ← Json.withDefault? Strategy.ofJson? base.partition partition
    pairs := ← Json.withDefault? PairConfig.ofJson? base.pairs pairs
    encoding := ← Json.withDefault? Encoding.ofJson? base.encoding encoding
    seedOffset := (← Json.withDefault? Json.nat64? base.seedOffset.toNat offset).toUInt64
    slots := ← Json.withDefault? Json.nat64? base.slots slots
    reports := ← Json.withDefault? (Json.nullable? Json.stringText?) base.reports reports
    dumpSamples := ← Json.withDefault? Json.bool? base.dumpSamples dump }

/-- Read the description in a file. -/
def read (t : FileTree) (path : String) : Except DatasetError DatasetConfig :=
  if !t.isFile path then .error (.missing .config path)
  else
    match t.readText path with
    | .error e => .error (.file e)
    | .ok text =>
      match (Json.parse? text).bind ofJson? with
      | some c => .ok c
      | none => .error (.metadata path .malformed)

end DatasetConfig
end PairDatasets
