import PairDatasets.Decimal.Literal
import PairDatasets.Memory
import PairDatasets.Plain

/-!
How unevenly dissimilar pairs are spread over problems.
-/
namespace PairDatasets
open Plain

/-- The part of one problem. -/
structure ProblemShare where
  problem : Nat
  count : Nat
  share : Float
  deriving DecidableEq

structure Skew where
  total : Nat
  problems : Nat
  least : Nat
  most : Nat
  mean : Float
  mostShare : Float
  leastShare : Float
  /-- The most by the least, infinite if that is 0. -/
  ratio : Float
  /-- By falling counts, then by labels. -/
  shares : List ProblemShare
  deriving DecidableEq

namespace Skew

/-- Of several counts of one problem the last one stands. -/
def latest : List (Nat × Nat) → List (Nat × Nat)
  | [] => []
  | (p, n) :: rest =>
    if rest.any fun (q, _) => q = p then latest rest else (p, n) :: latest rest

/-- Larger counts first, of equal counts the smaller label. -/
def precedes (a b : Nat × Nat) : Bool := b.2 < a.2 || (a.2 = b.2 && a.1 ≤ b.1)

def shareOf (total count : Nat) : Float :=
  if total = 0 then 0.0 else Float.ofNat count / Float.ofNat total

/-- The skew of counts by problem, in which each problem stands once; nothing without problems. -/
def ofCounts? (counts : List (Nat × Nat)) : Option Skew := do
  let values := counts.map (·.2)
  let least ← values.min?
  let most ← values.max?
  let total := values.sum
  return {
    total := total
    problems := counts.length
    least := least
    most := most
    mean := Float.ofNat total / Float.ofNat counts.length
    mostShare := shareOf total most
    leastShare := shareOf total least
    ratio := if least = 0 then Decimal.infinity else Float.ofNat most / Float.ofNat least
    shares := (counts.mergeSort precedes).map fun (p, n) => ⟨p, n, shareOf total n⟩ }

/-- The skew of any counts, if their sum is a word. -/
def measure (counts : List (Nat × Nat)) : Except DatasetError (Option Skew) := do
  Memory.requireWord (counts.map (·.2)).sum
  return ofCounts? counts

end Skew
end PairDatasets
