import PairDatasets.Memory
import PairDatasets.Statistics.Row

/-!
How often each problem of a range of labels occurs in a list of pairs, alone and with every other
problem. The pairs are gone through once, with a counter for every place in the range and for every
two places; what is told of a problem is read off the counters.
-/
namespace PairDatasets

/-- What is known of a problem that occurs. -/
structure ProblemRow where
  problem : Nat
  /-- Similar pairs. -/
  same : Nat
  /-- Dissimilar pairs with the problem on the left. -/
  left : Nat
  /-- Dissimilar pairs with the problem on the right. -/
  right : Nat
  /-- The fewest pairs with one problem on the right. -/
  fewest : Nat
  /-- The most pairs with one problem on the right. -/
  most : Nat
  median : Float
  mean : Float
  deviation : Float
  /-- The first problem with the fewest pairs, if it has any. -/
  leastPartner : Option Nat
  /-- The first problem with the most pairs, if it has any. -/
  mostPartner : Option Nat
  deriving DecidableEq

structure Distribution where
  start : Nat
  problems : Nat
  samples : Nat
  /-- The problems of the range that occur. -/
  rows : List ProblemRow
  /-- Row by row the pairs with a first and a second problem. -/
  pairCounts : List (List Nat)
  /-- Pairs with a problem outside the range. -/
  outOfRange : Nat
  /-- The problems of the range that do not occur. -/
  absent : List Nat
  /-- The problems that occur, but never so. -/
  withoutSame : List Nat
  withoutDifferent : List Nat
  withoutLeft : List Nat
  withoutRight : List Nat
  deriving DecidableEq

namespace Distribution

/-- What has been counted so far, by places in the range. -/
structure Counters where
  /-- Similar pairs. -/
  same : Array Nat
  /-- Dissimilar pairs, by the problem on the left. -/
  left : Array Nat
  /-- Dissimilar pairs, by the problem on the right. -/
  right : Array Nat
  /-- All pairs, row by row of the problem on the left. -/
  matrix : Array (Array Nat)
  /-- Pairs with a problem outside the range. -/
  outside : Nat

/-- The place of a label in the range of `n` labels from `start` on, if it lies there. -/
def place? (start n label : Nat) : Option Nat :=
  if start ≤ label && label < start + n then some (label - start) else none

namespace Counters

/-- Before the first pair. -/
def zero (n : Nat) : Counters where
  same := Array.replicate n 0
  left := Array.replicate n 0
  right := Array.replicate n 0
  matrix := Array.replicate n (Array.replicate n 0)
  outside := 0

/-- Count a pair. With a problem outside the range it counts nowhere else. -/
def add (start n : Nat) (c : Counters) (p : Pair) : Counters :=
  match place? start n p.problem1, place? start n p.problem2 with
  | some i, some j =>
    let c := { c with matrix := c.matrix.modify i (·.modify j (· + 1)) }
    if i = j then { c with same := c.same.modify i (· + 1) }
    else { c with left := c.left.modify i (· + 1), right := c.right.modify j (· + 1) }
  | _, _ => { c with outside := c.outside + 1 }

def ofPairs (start n : Nat) (pairs : List Pair) : Counters := pairs.foldl (add start n) (zero n)

/-- Whether the problem at a place was counted at all. -/
def occurs (c : Counters) (i : Nat) : Bool :=
  c.same.getD i 0 + c.left.getD i 0 + c.right.getD i 0 ≠ 0

/-- The row of the problem at a place. -/
def row (start : Nat) (c : Counters) (i : Nat) : ProblemRow :=
  let counts := (c.matrix.getD i #[]).toList
  let (least, fewest) := Row.least counts
  let (most, largest) := Row.most counts
  { problem := start + i
    same := c.same.getD i 0
    left := c.left.getD i 0
    right := c.right.getD i 0
    fewest := fewest
    most := largest
    median := Row.median counts
    mean := Row.mean counts
    deviation := Row.deviation counts
    leastPartner := if 0 < fewest then some (start + least) else none
    mostPartner := if 0 < largest then some (start + most) else none }

end Counters

/-- The distribution of pairs over the `n` problems from `start` on. -/
def ofPairs (start n : Nat) (pairs : List Pair) : Distribution :=
  let c := Counters.ofPairs start n pairs
  let places := List.range n
  let rows := (places.filter c.occurs).map (c.row start)
  let lacking (count : ProblemRow → Nat) := (rows.filter (count · = 0)).map ProblemRow.problem
  { start := start
    problems := n
    samples := pairs.length
    rows := rows
    pairCounts := c.matrix.toList.map Array.toList
    outOfRange := c.outside
    absent := (places.filter fun i => !c.occurs i).map (start + ·)
    withoutSame := lacking (·.same)
    withoutDifferent := lacking fun r => r.left + r.right
    withoutLeft := lacking (·.left)
    withoutRight := lacking (·.right) }

/-- Memory must hold a count for each of `n` problems, and the last label must be a word. -/
def checkRange (start n : Nat) : Except DatasetError Unit := do
  Memory.require (Memory.holds 8 n)
  Memory.requireWord (start + n - 1)

/-- The distribution over a range that can be counted. -/
def measure (start n : Nat) (pairs : List Pair) : Except DatasetError Distribution := do
  checkRange start n
  return ofPairs start n pairs

/-- A count in percent of all pairs, 0 without pairs. -/
def percent (d : Distribution) (count : Nat) : Float :=
  if d.samples = 0 then 0.0 else 100.0 * Float.ofNat count / Float.ofNat d.samples

/-- The dissimilar pairs of every problem that occurs. -/
def crossCounts (d : Distribution) : List (Nat × Nat) :=
  d.rows.map fun r => (r.problem, r.left + r.right)

end Distribution
end PairDatasets
