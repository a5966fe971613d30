import PairDatasets.Corpus.Basic
import PairDatasets.Partition.Split
import PairDatasets.Plain

/-!
What a split may draw from: problems, and of each problem some positions of its solutions.
-/
namespace PairDatasets
open Plain

/-- Solutions of one problem, by their positions in the corpus. -/
structure Slice where
  problem : Nat
  solutions : List Nat
  deriving DecidableEq, Repr, Inhabited

def Slice.size (s : Slice) : Nat := s.solutions.length

/-- The slices of a split and the label of its first problem. -/
structure Group where
  start : Nat
  slices : List Slice
  deriving DecidableEq, Repr, Inhabited

namespace Group

def problemCount (g : Group) : Nat := g.slices.length

/-- How many solutions each slice has. -/
def sizes (g : Group) : List Nat := g.slices.map Slice.size

def solutionCount (g : Group) : Nat := g.sizes.sum

def labels (g : Group) : List Nat := g.slices.map Slice.problem

/-- The first slice of a problem. -/
def slice? (g : Group) (problem : Nat) : Option Slice :=
  g.slices.find? fun s => s.problem = problem

def holds (g : Group) (problem : Nat) : Bool := g.slices.any fun s => s.problem = problem

/-- A solution that the group may use. -/
def Offers (g : Group) (problem solution : Nat) : Prop :=
  ∃ s ∈ g.slices, s.problem = problem ∧ solution ∈ s.solutions

/-- All solutions of the problems with labels from `first` up to, but not including, `last`. -/
def whole (c : Corpus) (first last : Nat) : Group where
  start := first
  slices := ((c.problems.drop first).take (last - first)).map fun p =>
    ⟨p.label, List.range p.size⟩

end Group
end PairDatasets
