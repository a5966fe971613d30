import PairDatasets.Plain

/-!
A corpus: problems in label order, each with its tokenized solutions, and what was left out of it.
-/
namespace PairDatasets
open Plain

/-- One tokenized solution. Token ids have 32 bits. -/
structure Solution where
  name : String
  tokens : List UInt32
  deriving DecidableEq, Repr, Inhabited

/-- Number of tokens. -/
def Solution.size (s : Solution) : Nat := s.tokens.length

/-- A task and its solutions; the label is its position in the corpus. -/
structure Problem where
  name : String
  label : Nat
  solutions : List Solution
  deriving DecidableEq, Repr, Inhabited

def Problem.size (p : Problem) : Nat := p.solutions.length

/-- Ordered pairs of different solutions of one problem. -/
def Problem.orderedPairs (p : Problem) : Nat := p.size * (p.size - 1)

/-- A solution left out for its length. -/
structure Omitted where
  solution : String
  tokens : Nat
  deriving DecidableEq, Repr

/-- Solutions left out, by problem, in the order in which the problems were met. -/
abbrev OmittedByProblem := List (String × List Omitted)

/-- Add a solution to its problem, which is new at the end if it was not met before. -/
def OmittedByProblem.add (m : OmittedByProblem) (problem : String) (o : Omitted) :
    OmittedByProblem :=
  match m with
  | [] => [(problem, [o])]
  | (p, os) :: rest =>
    if p = problem then (p, os ++ [o]) :: rest
    else (p, os) :: OmittedByProblem.add rest problem o

/-- How many solutions were left out. -/
def OmittedByProblem.total (m : OmittedByProblem) : Nat := (m.map fun (_, os) => os.length).sum

theorem OmittedByProblem.total_add (m : OmittedByProblem) (problem : String) (o : Omitted) :
    (m.add problem o).total = m.total + 1 := by
  fun_induction OmittedByProblem.add m problem o with
  | case1 => rfl
  | case2 => simp [total]; omega
  | case3 p os rest h ih => simp only [total, List.map_cons, List.sum_cons] at ih ⊢; omega

/-- What loading left out, and whether the data had errors. -/
structure LoadReport where
  tooShort : OmittedByProblem := []
  tooLong : OmittedByProblem := []
  unreadable : List String := []
  underpopulated : List (String × Nat) := []
  rejectedLines : Nat := 0
  badData : Bool := false
  deriving DecidableEq, Repr, Inhabited

/-- Solutions left out for their length. -/
def LoadReport.omitted (r : LoadReport) : Nat := r.tooShort.total + r.tooLong.total

structure Corpus where
  tokenSet : String
  /-- Every token id lies below it. -/
  vocabulary : Nat
  problems : List Problem
  /-- The length of the longest solution. -/
  longest : Nat
  report : LoadReport := {}
  deriving DecidableEq, Repr, Inhabited

namespace Corpus

/-- The problems of a corpus in order, labelled from 0 on. -/
def ofProblems (tokenSet : String) (vocabulary : Nat) (problems : List (String × List Solution)) :
    Corpus where
  tokenSet := tokenSet
  vocabulary := vocabulary
  problems := problems.mapIdx fun label (name, solutions) => ⟨name, label, solutions⟩
  longest := ((problems.flatMap (·.2)).map Solution.size).foldl max 0

def problemCount (c : Corpus) : Nat := c.problems.length

/-- Solution counts in label order. -/
def counts (c : Corpus) : List Nat := c.problems.map Problem.size

def solutionCount (c : Corpus) : Nat := c.counts.sum

def problem? (c : Corpus) (label : Nat) : Option Problem := c.problems[label]?

def problemName? (c : Corpus) (label : Nat) : Option String := (c.problem? label).map Problem.name

/-- The first label with a name. -/
def labelOf? (c : Corpus) (name : String) : Option Nat := c.problems.findIdx? (·.name = name)

def solution? (c : Corpus) (problem solution : Nat) : Option Solution :=
  (c.problem? problem).bind (·.solutions[solution]?)

@[simp] theorem counts_ofProblems (t : String) (v : Nat) (ps : List (String × List Solution)) :
    (ofProblems t v ps).counts = ps.map fun p => p.2.length := by
  refine List.ext_getElem? fun i => ?_
  simp [counts, ofProblems, Problem.size, Function.comp_def]

end Corpus
end PairDatasets
