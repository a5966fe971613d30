import PairDatasets.Decimal.Shortest
import PairDatasets.Plain

/-!
Decimals with a fixed number of places. The exact binary value is rounded, a half goes to the even
neighbour.
-/
namespace PairDatasets.Decimal
open Plain

/-- Digits of `n / 10 ^ places` with the point in its place. -/
def placed (places n : Nat) : List Char :=
  let whole := digitChars (n / 10 ^ places)
  if places = 0 then whole
  else
    let fraction := digitChars (n % 10 ^ places)
    whole ++ '.' :: List.replicate (places - fraction.length) '0' ++ fraction

/-- The text of a double with `places` digits after the point. -/
def fixed (places : Nat) (x : Float) : String :=
  match Reading.ofFloat x with
  | .notANumber => "NaN"
  | .infinite negative => if negative then "-inf" else "inf"
  | .finite b =>
    let (num, den) := b.quotient
    let cs := placed places (roundDiv .even (num * 10 ^ places) den)
    String.ofList (if b.negative then '-' :: cs else cs)

example : placed 2 5 = ['0', '.', '0', '5'] := by decide

end PairDatasets.Decimal
