import PairDatasets.Random.Shuffle

/-!
Seeds by purpose. Each purpose has a base seed, a run adds one offset to all of them, and every use
starts a generator of its own, so what one purpose draws never disturbs another.
-/
namespace PairDatasets

/-- What a generator is started for. -/
inductive Purpose where
  | problemOrder
  | solutionOrder
  | sampleOrder
  | trainingPairs
  | validationPairs
  | testPairs
  | testCut
  | validationCut
  | trainingOrder
  deriving DecidableEq, Repr

namespace Purpose

def all : List Purpose :=
  [problemOrder, solutionOrder, sampleOrder, trainingPairs, validationPairs, testPairs,
    testCut, validationCut, trainingOrder]

/-- The seed of a purpose before any offset. -/
def base : Purpose → UInt64
  | problemOrder => 1812
  | solutionOrder => 1870
  | sampleOrder => 1905
  | trainingPairs => 1917
  | validationPairs => 1937
  | testPairs => 1941
  | testCut => 1945
  | validationCut => 1961
  | trainingOrder => 1980

/-- The name of a purpose in messages. -/
def name : Purpose → String
  | problemOrder => "all_problems"
  | solutionOrder => "problem_solutions"
  | sampleOrder => "all_solutions"
  | trainingPairs => "train_pairs"
  | validationPairs => "validation_pairs"
  | testPairs => "test_pairs"
  | testCut => "test_shuffle"
  | validationCut => "validation_shuffle"
  | trainingOrder => "train_shuffle"

end Purpose

/-- The seeds of a run: every base seed moved by one offset, modulo 2⁶⁴. -/
structure Seeds where
  offset : UInt64 := 0
  deriving DecidableEq, Repr, Inhabited

namespace Seeds

/-- The offset of a run that names none. -/
def defaultOffset : UInt64 := 101

/-- Move every seed on by `k`. -/
def shift (s : Seeds) (k : UInt64) : Seeds := ⟨s.offset + k⟩

def seed (s : Seeds) (p : Purpose) : UInt64 := p.base + s.offset

/-- A fresh generator for a purpose. -/
def generator (s : Seeds) (p : Purpose) : Generator := ⟨s.seed p⟩

/-- Shuffle with a fresh generator. The order of the items must itself be reproducible. -/
def shuffle {α : Type _} (s : Seeds) (p : Purpose) (xs : List α) : List α :=
  ((s.generator p).shuffle xs).1

/-- Sort names first, then shuffle, so that the given order leaves no trace. -/
def shuffleSorted (s : Seeds) (p : Purpose) (names : List String) : List String :=
  s.shuffle p (names.mergeSort fun a b => a ≤ b)

@[simp] theorem seed_shift (s : Seeds) (k : UInt64) (p : Purpose) :
    (s.shift k).seed p = s.seed p + k := by
  simp [seed, shift, UInt64.add_assoc]

end Seeds
end PairDatasets
