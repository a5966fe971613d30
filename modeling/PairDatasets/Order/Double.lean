import PairDatasets.Plain

/-!
A total order of all doubles: by sign, then by size, with what is not a number at the ends and the
negative zero below the positive one.
-/
namespace PairDatasets
open Plain

/-- The place of a double: its bits, mirrored for a set sign. -/
def doubleRank (x : Float) : Int :=
  let bits : Nat := x.toBits.toNat
  if bits < 2 ^ (63 : Nat) then bits else -((bits - 2 ^ (63 : Nat) : Nat) : Int) - 1

example : doubleRank (-1.0) < doubleRank (-0.0) ∧ doubleRank (-0.0) < doubleRank 0.0 := by decide
example : doubleRank 0.5 < doubleRank 1.0 ∧ doubleRank 1.0 < doubleRank (1.0 / 0.0) := by decide

end PairDatasets
