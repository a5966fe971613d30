import PairDatasets.Order.Distinct
import PairDatasets.Partition.Group
import PairDatasets.Partition.Strategy
import PairDatasets.Random.Seeds

/-!
Dividing a corpus. Two strategies cut it by position: test problems from the end, then validation
from the front. The balanced strategy cuts the solutions of every problem after shuffling them.
-/
namespace PairDatasets

/-- The groups of a run, with the strategy they came from. -/
structure Partition where
  strategy : Strategy
  training : Group
  validation : Option Group
  test : Option Group
  deriving DecidableEq

namespace Partition

/-- The group of a split, if it has one. -/
def group? (p : Partition) : Split → Option Group
  | .training => some p.training
  | .validation => p.validation
  | .test => p.test

/-- The labels used for training or validation, ascending and each once. -/
def seenLabels (p : Partition) : List Nat :=
  distinctNats (p.training.labels ++ (p.validation.map Group.labels).getD [])

/-- A split by problems has at least two of them. -/
def minProblems : Nat := 2

def checkValidation (f : Float) : Except DatasetError Unit :=
  if isProperFraction f then .ok () else .error (.configuration (.validationFraction f))

def checkTest (f : Float) : Except DatasetError Unit :=
  if isProperFraction f then .ok () else .error (.configuration (.testFraction f))

/-- How many problems stay after the test problems at the end, and the group of those. -/
def setTestAside (c : Corpus) (test : TestAmount) : Except DatasetError (Nat × Option Group) := do
  let n ← test.resolve c.problemCount
  let rest := c.problemCount - n
  .ok (rest, if 0 < n then some (Group.whole c rest c.problemCount) else none)

/-- Whole problems: validation first, then training, then test. -/
def byProblems (c : Corpus) (test : TestAmount) (validation : Float) :
    Except DatasetError Partition := do
  checkValidation validation
  let (rest, testGroup) ← setTestAside c test
  let v := cut validation rest
  if 0.0 < validation ∧ v < minProblems then .error (.splitTooSmall .validation v)
  else if rest - v < minProblems then .error (.splitTooSmall .training (rest - v))
  else .ok {
    strategy := .disjointProblems test validation
    training := Group.whole c v rest
    validation := if 0 < v then some (Group.whole c 0 v) else none
    test := testGroup }

/-- Whole test problems; of every other problem the first solutions validate and the rest train. -/
def bySolutions (c : Corpus) (test : TestAmount) (validation : Float) :
    Except DatasetError Partition := do
  checkValidation validation
  let (rest, testGroup) ← setTestAside c test
  if rest < minProblems then .error (.splitTooSmall .training rest)
  else
    let shared := c.problems.take rest
    let first (p : Problem) : Slice := ⟨p.label, List.range (cut validation p.size)⟩
    let later (p : Problem) : Slice := ⟨p.label, (List.range p.size).drop (cut validation p.size)⟩
    .ok {
      strategy := .sameProblems test validation
      training := ⟨0, shared.map later⟩
      validation := if 0.0 < validation then some ⟨0, shared.map first⟩ else none
      test := testGroup }

/-- The generators of a balanced division, which go on from problem to problem. -/
structure Cutters where
  test : Generator
  validation : Generator
  training : Generator
  deriving DecidableEq, Repr

def Cutters.start (s : Seeds) : Cutters :=
  ⟨s.generator .testCut, s.generator .validationCut, s.generator .trainingOrder⟩

/-- At least one of `n` things, and none only for the fraction zero. -/
def share (f : Float) (n : Nat) : Nat := if 0.0 < f then max 1 (cut f n) else 0

/-- One solution for each split that is asked for. -/
def minSolutions (test validation : Float) : Nat :=
  1 + (if 0.0 < test then 1 else 0) + (if 0.0 < validation then 1 else 0)

/-- The solutions of one problem by split. -/
structure Parts where
  problem : Nat
  test : List Nat
  validation : List Nat
  training : List Nat
  deriving DecidableEq, Repr

/-- Shuffle the solutions of a problem and cut the test part from the end; shuffle the rest and cut
the validation part from the front; shuffle what is left for training. -/
def divideProblem (test validation : Float) (p : Problem) (k : Cutters) :
    Except DatasetError (Parts × Cutters) :=
  let n := p.size
  if n < minSolutions test validation then
    .error (.tooFewSolutions p.name n (minSolutions test validation))
  else
    let (order, testGen) := k.test.shuffle (List.range n)
    let t := share test n
    let (rest, validationGen) := k.validation.shuffle (order.take (n - t))
    let v := share validation rest.length
    let left := rest.drop v
    if left.isEmpty then .error (.configuration (.nothingToTrain p.name n t v))
    else
      let (training, trainingGen) := k.training.shuffle left
      .ok (⟨p.label, order.drop (n - t), rest.take v, training⟩,
        ⟨testGen, validationGen, trainingGen⟩)

/-- Divide problem after problem; the first that cannot be divided decides. -/
def divideAll (test validation : Float) :
    List Problem → Cutters → Except DatasetError (List Parts)
  | [], _ => .ok []
  | p :: ps, k => do
    let (parts, k) ← divideProblem test validation p k
    let rest ← divideAll test validation ps k
    .ok (parts :: rest)

/-- Every problem in every split. -/
def balanced (c : Corpus) (test validation : Float) (s : Seeds) :
    Except DatasetError Partition := do
  checkTest test
  checkValidation validation
  let parts ← divideAll test validation c.problems (Cutters.start s)
  let group (pick : Parts → List Nat) : Group := ⟨0, parts.map fun p => ⟨p.problem, pick p⟩⟩
  .ok {
    strategy := .balanced test validation
    training := group Parts.training
    validation := if 0.0 < validation then some (group Parts.validation) else none
    test := if 0.0 < test then some (group Parts.test) else none }

end Partition

/-- Divide a corpus by a strategy. -/
def Corpus.divide (c : Corpus) (strategy : Strategy) (s : Seeds) :
    Except DatasetError Partition :=
  match strategy with
  | .disjointProblems test validation => Partition.byProblems c test validation
  | .sameProblems test validation => Partition.bySolutions c test validation
  | .balanced test validation => Partition.balanced c test validation s

end PairDatasets
