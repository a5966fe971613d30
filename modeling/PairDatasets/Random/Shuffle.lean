import PairDatasets.Plain
import PairDatasets.Random.Draw

/-!
Shuffles by swaps: position `i` changes places with a position drawn from `0, …, i`. Several of
these small draws are read off one 32-bit draw, as the digits of a number whose place values grow
with the position. The swaps depend on the length and on the generator only, never on the items.
-/
namespace PairDatasets
open Plain
namespace Generator

/-- The longest product `product * factor * (factor + 1) * …` below 2³² and its number of factors.
Every factor at least doubles it, so 32 of them are never reached. -/
def growProduct : Nat → Nat → Nat → Nat → Nat × Nat
  | 0, product, count, _ => (product, count)
  | fuel + 1, product, count, factor =>
    if product * factor < 2 ^ (32 : Nat) then growProduct fuel (product * factor) (count + 1) (factor + 1)
    else (product, count)

/-- How many values one draw covers when its digits serve positions from radix `radix` on, and
how many digits it has. -/
def digitRange (radix : Nat) : Nat × Nat := growProduct 32 radix 1 (radix + 1)

/-- What is left of the last draw: a number and how many digits it still holds. -/
structure Digits where
  rest : Nat
  count : Nat
  deriving DecidableEq, Repr

/-- The swap partner of position `i`, at most `i`: the next digit, after a fresh draw if none is
left. The last digit is the whole rest. -/
def partner (i : Nat) (d : Digits) (g : Generator) : Nat × Digits × Generator :=
  let (rest, count, g) :=
    if d.count = 0 then
      let (range, count) := digitRange (i + 1)
      let (rest, g) := g.below32 range
      (rest, count - 1, g)
    else (d.rest, d.count - 1, g)
  if count = 0 then (rest, ⟨rest, 0⟩, g) else (rest % (i + 1), ⟨rest / (i + 1), count⟩, g)

/-- Swap the `k` positions from `i` on with their partners. -/
def shuffleFrom {α : Type _} : Nat → Nat → Digits → Array α → Generator → Array α × Generator
  | 0, _, _, xs, g => (xs, g)
  | k + 1, i, d, xs, g =>
    let (j, d, g) := partner i d g
    shuffleFrom k (i + 1) d (xs.swapIfInBounds i j) g

/-- Shuffle an array. Nothing is drawn for fewer than two items, and position 0 needs no draw. -/
def shuffleArray {α : Type _} (xs : Array α) (g : Generator) : Array α × Generator :=
  if xs.size ≤ 1 then (xs, g) else shuffleFrom xs.size 0 ⟨0, 1⟩ xs g

/-- Shuffle a list. -/
def shuffle {α : Type _} (xs : List α) (g : Generator) : List α × Generator :=
  let (ys, g) := shuffleArray xs.toArray g
  (ys.toList, g)

example : digitRange 2 = (479001600, 11) := by decide

end Generator
end PairDatasets
