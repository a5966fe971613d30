import PairDatasets.Text.Pieces

/-!
Pairs of solutions, by problem label and position, and the numbers a model is trained with.
-/
namespace PairDatasets

/-- The two solutions of a pair: problem and position on the left, then on the right. -/
structure Pair where
  problem1 : Nat
  solution1 : Nat
  problem2 : Nat
  solution2 : Nat
  deriving DecidableEq, Repr, Inhabited

/-- How labels are written as numbers. -/
inductive LabelMode where
  /-- Dissimilar pairs are 0. -/
  | binary
  /-- Dissimilar pairs are -1. -/
  | bipolar
  deriving DecidableEq, Repr, Inhabited

namespace Pair

/-- A pair takes four 64-bit words. -/
def bytes : Nat := 32

/-- Both solutions solve the same problem. -/
def similar (p : Pair) : Bool := p.problem1 = p.problem2

/-- The number of a pair: 1 if it is similar. -/
def label (mode : LabelMode) (p : Pair) : Int :=
  if p.similar then 1
  else
    match mode with
    | .binary => 0
    | .bipolar => -1

/-- A pair in messages. -/
def text (p : Pair) : String :=
  "(" ++ Text.join ", " ([p.problem1, p.solution1, p.problem2, p.solution2].map toString) ++ ")"

/-- The pair with its sides exchanged. -/
def swap (p : Pair) : Pair := ⟨p.problem2, p.solution2, p.problem1, p.solution1⟩

end Pair
end PairDatasets
