import PairDatasets.Memory
import PairDatasets.Partition.Group
import PairDatasets.Plain

/-!
How many similar pairs each problem is to give, in proportion to the ordered pairs it has.
-/
namespace PairDatasets
open Plain

/-- Ordered pairs of different things out of `n`. -/
def orderedPairs (n : Nat) : Nat := n * (n - 1)

/-- `budget · pairs / total`, computed in doubles from the left and cut to a whole number. -/
def pairShare (budget pairs total : Nat) : Nat :=
  (Float.ofNat budget * Float.ofNat pairs / Float.ofNat total).toUInt64.toNat

/-- Slices with at least two solutions: place, size and share. None if no slice has a pair. -/
def similarShares (sizes : List Nat) (budget : Nat) : List (Nat × Nat × Nat) :=
  let total := (sizes.map orderedPairs).sum
  if total = 0 then []
  else
    (sizes.zipIdx.filter fun (n, _) => 2 ≤ n).map fun (n, slice) =>
      (slice, n, pairShare budget (orderedPairs n) total)

/-- All ordered pairs must be countable together. -/
def countPairs (sizes : List Nat) : Except DatasetError Unit :=
  Memory.requireWord (sizes.map orderedPairs).sum

/-- The shares of a group by problem label. -/
def Group.similarShares (g : Group) (budget : Nat) : List (Nat × Nat) :=
  (PairDatasets.similarShares g.sizes budget).map fun (slice, _, share) =>
    (g.labels.getD slice 0, share)

/-- The shares of a group whose pairs can be counted. -/
def Group.allocate (g : Group) (budget : Nat) : Except DatasetError (List (Nat × Nat)) := do
  countPairs g.sizes
  return g.similarShares budget

end PairDatasets
