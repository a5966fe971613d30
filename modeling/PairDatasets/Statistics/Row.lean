import PairDatasets.Plain

/-!
Statistics of a row of counts: its extremes with their first places, median, mean and spread.
-/
namespace PairDatasets.Row
open Plain

/-- The first entry that no later one beats, with its place. -/
def bestFrom (beats : Nat → Nat → Bool) : List Nat → Nat → Nat × Nat → Nat × Nat
  | [], _, best => best
  | v :: vs, place, best =>
    bestFrom beats vs (place + 1) (if beats v best.2 then (place, v) else best)

/-- Place and value of the best entry of a row; both are 0 for the empty row. -/
def best (beats : Nat → Nat → Bool) : List Nat → Nat × Nat
  | [] => (0, 0)
  | v :: vs => bestFrom beats vs 1 (0, v)

/-- The first smallest entry. -/
def least (row : List Nat) : Nat × Nat := best (fun a b => a < b) row

/-- The first largest entry. -/
def most (row : List Nat) : Nat × Nat := best (fun a b => b < a) row

/-- The middle of the sorted row, of an even number of entries the mean of the middle two. A row
of the matrix of a split counts pairs that memory holds, each once, so no sum of its counts exceeds 64 bits. -/
def median (row : List Nat) : Float :=
  let sorted := row.mergeSort fun a b => a ≤ b
  let mid := sorted.length / 2
  if row.isEmpty then 0.0
  else if sorted.length % 2 = 0 then
    Float.ofNat (sorted.getD (mid - 1) 0 + sorted.getD mid 0) / 2.0
  else Float.ofNat (sorted.getD mid 0)

def mean (row : List Nat) : Float := Float.ofNat row.sum / Float.ofNat row.length

/-- Squared distance from the mean. -/
def squaredDistance (mean : Float) (n : Nat) : Float :=
  (Float.ofNat n - mean) * (Float.ofNat n - mean)

/-- The standard deviation of the whole row, summed from the left. -/
def deviation (row : List Nat) : Float :=
  let mean := mean row
  let squares := row.foldl (fun sum n => sum + squaredDistance mean n) 0.0
  (squares / Float.ofNat row.length).sqrt

example : least [3, 1, 1] = (1, 1) ∧ most [3, 1, 3] = (0, 3) := by decide

end PairDatasets.Row
