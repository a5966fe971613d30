import PairDatasets.Partition.Divide
import PairDatasets.Decimal.Fixed
import PairDatasets.Plain

/-!
How many different pairs there are to draw, and how that number is written.
-/
namespace PairDatasets
open Plain

/-- Ordered pairs of different solutions, of one problem and of two. -/
structure Capacity where
  similar : Nat := 0
  dissimilar : Nat := 0
  deriving DecidableEq, Repr, Inhabited

namespace Capacity

/-- The largest 128-bit number. -/
def limit : Nat := 2 ^ (128 : Nat) - 1

/-- Both kinds together, at most the largest 128-bit number. -/
def total (c : Capacity) : Nat := min (c.similar + c.dissimilar) limit

/-- Take in a problem with `n` of all `solutions`: the pairs within it, and those that begin in it. No
product exceeds the largest 128-bit number. -/
def observe (solutions : Nat) (c : Capacity) (n : Nat) : Capacity where
  similar := c.similar + min (n * (n - 1)) limit
  dissimilar := c.dissimilar + min (n * (solutions - n)) limit

/-- The capacity of problems with the given numbers of solutions. -/
def ofCounts (counts : List Nat) : Capacity := counts.foldl (observe counts.sum) {}

def ofGroup (g : Group) : Capacity := ofCounts g.sizes

def ofCorpus (c : Corpus) : Capacity := ofCounts c.counts

/-- The capacity of every split that has a group. -/
def ofPartition (p : Partition) : List (Split × Capacity) :=
  Split.all.filterMap fun s => (p.group? s).map fun g => (s, ofGroup g)

end Capacity

/-- Put a comma after every third digit counted from the right. -/
def groupDigits : List Char → List Char
  | [] => []
  | c :: cs => if cs.length % 3 = 0 ∧ cs ≠ [] then c :: ',' :: groupDigits cs else c :: groupDigits cs

/-- A number with its thousands separated. -/
def withCommas (n : Nat) : String := String.ofList (groupDigits (Decimal.digitChars n))

/-- How often each pair is drawn on average, with two places. -/
def reuseFactor (requested capacity : Nat) : String :=
  if requested = 0 ∨ capacity = 0 then "n/a"
  else Decimal.fixed 2 (Float.ofNat requested / Float.ofNat capacity) ++ "x"

example : groupDigits "1234567".toList = "1,234,567".toList := by decide

end PairDatasets
