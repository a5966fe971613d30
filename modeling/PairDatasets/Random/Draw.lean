import PairDatasets.Plain
import PairDatasets.Random.Generator

/-!
Draws from a range by one multiplication: a word `x` below `width` stands for the fraction
`x / width`, and its share of `n` is the high part of `x * n`. When the low part lies so high that
further digits of the fraction could still carry, a second word supplies them.
-/
namespace PairDatasets
open Plain
namespace Generator

/-- Scale one word to a value below `n`; a second word is drawn only when it may carry.
The last value of the range is its ceiling. -/
def scaled (word : Generator → Nat × Generator) (width n : Nat) (g : Generator) :
    Nat × Generator :=
  let (x, g) := word g
  let high := x * n / width
  let low := x * n % width
  if width < low + n then
    let (y, g) := word g
    if width ≤ low + y * n / width then (min (high + 1) (n - 1), g) else (high, g)
  else (high, g)

/-- A value below `n` from 32-bit words. -/
def below32 (n : Nat) (g : Generator) : Nat × Generator :=
  scaled (fun g => (g.word32.1.toNat, g.word32.2)) (2 ^ (32 : Nat)) n g

/-- A value below `n` from 64-bit words. -/
def below64 (n : Nat) (g : Generator) : Nat × Generator :=
  scaled (fun g => (g.word64.1.toNat, g.word64.2)) (2 ^ (64 : Nat)) n g

/-- A value below `n`; ranges that 32 bits can count use 32-bit words. -/
def below (n : Nat) (g : Generator) : Nat × Generator :=
  if n < 2 ^ (32 : Nat) then g.below32 n else g.below64 n

/-- A value below `n`, or nothing when there is none. -/
def below? (n : Nat) (g : Generator) : Option (Nat × Generator) :=
  if n = 0 then none else some (g.below n)

theorem scaled_lt {word : Generator → Nat × Generator} {width n : Nat} (hn : 0 < n)
    (hw : ∀ g, (word g).1 < width) (g : Generator) : (scaled word width n g).1 < n := by
  have hx := hw g
  have hlt : (word g).1 * n / width < n :=
    Nat.div_lt_of_lt_mul (Nat.mul_lt_mul_of_pos_right hx hn)
  unfold scaled
  dsimp only
  split
  · split
    · exact Nat.lt_of_le_of_lt (Nat.min_le_right _ _) (by omega)
    · exact hlt
  · exact hlt

theorem below_lt {n : Nat} (hn : 0 < n) (g : Generator) : (g.below n).1 < n := by
  unfold below below32 below64
  split
  · exact scaled_lt hn (fun g => g.word32.1.toNat_lt) g
  · exact scaled_lt hn (fun g => g.word64.1.toNat_lt) g

/-- Draw twice until the two values differ; `none` when `rounds` rounds brought equal values only. -/
def distinct (draw : Generator → Nat × Generator) :
    Nat → Generator → Option (Nat × Nat) × Generator
  | 0, g => (none, g)
  | rounds + 1, g =>
    let (a, g) := draw g
    let (b, g) := draw g
    if a ≠ b then (some (a, b), g) else distinct draw rounds g

theorem ne_of_distinct {draw : Generator → Nat × Generator} {rounds : Nat} {g h : Generator}
    {a b : Nat} (e : distinct draw rounds g = (some (a, b), h)) : a ≠ b := by
  induction rounds generalizing g with
  | zero => simp [distinct] at e
  | succ n ih =>
    rw [distinct] at e
    dsimp only at e
    split at e
    · cases e; assumption
    · exact ih e

example : (below 2 ⟨858734⟩).1 = 0 := by decide

end Generator
end PairDatasets
