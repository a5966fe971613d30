import PairDatasets.Plain

/-!
Binary floating point numbers as exact quantities: a sign, a whole number and a power of two.
-/
namespace PairDatasets.Decimal
open Plain

/-- `±mantissa · 2 ^ exponent`. -/
structure Binary where
  negative : Bool
  mantissa : Nat
  exponent : Int
  deriving DecidableEq, Repr

/-- What a double stands for. -/
inductive Reading where
  | notANumber
  | infinite (negative : Bool)
  | finite (value : Binary)
  deriving DecidableEq, Repr

/-- Take a double apart. A zero exponent field marks numbers without the leading bit. -/
def Reading.ofFloat (x : Float) : Reading :=
  let bits : Nat := x.toBits.toNat
  let negative : Bool := 2 ^ (63 : Nat) ≤ bits
  let field : Nat := bits / 2 ^ (52 : Nat) % 2 ^ (11 : Nat)
  let fraction : Nat := bits % 2 ^ (52 : Nat)
  if field = 2 ^ (11 : Nat) - 1 then if fraction = 0 then .infinite negative else .notANumber
  else if field = 0 then .finite ⟨negative, fraction, -1074⟩
  else .finite ⟨negative, fraction + 2 ^ (52 : Nat), (field : Int) - 1075⟩

/-- `mantissa · 2 ^ exponent` as a quotient of natural numbers. -/
def Binary.quotient (b : Binary) : Nat × Nat :=
  (b.mantissa * 2 ^ b.exponent.toNat, 2 ^ (-b.exponent).toNat)

/-- Where a value half way between two neighbours goes. -/
inductive Tie where
  | up
  | even
  deriving DecidableEq, Repr

/-- `num / den` rounded to the nearest whole number. -/
def roundDiv (tie : Tie) (num den : Nat) : Nat :=
  let q := num / den
  let twice := 2 * (num % den)
  if twice < den then q
  else if den < twice then q + 1
  else
    match tie with
    | .up => q + 1
    | .even => q + q % 2

/-- A rounded quotient is within half a unit. -/
theorem roundDiv_near {tie : Tie} {num den : Nat} (h : 0 < den) :
    2 * num ≤ 2 * (roundDiv tie num den * den) + den ∧
      2 * (roundDiv tie num den * den) ≤ 2 * num + den := by
  have hd := Nat.div_add_mod num den
  have hm := Nat.mod_lt num h
  rw [Nat.mul_comm] at hd
  unfold roundDiv
  dsimp only
  split
  · constructor <;> omega
  · split
    · rw [Nat.add_mul]; constructor <;> omega
    · cases tie with
      | up => simp only [Nat.add_mul]; constructor <;> omega
      | even =>
        rcases Nat.mod_two_eq_zero_or_one (num / den) with h | h <;>
          simp only [h, Nat.add_mul] <;> constructor <;> omega

example : roundDiv .even 5 2 = 2 ∧ roundDiv .up 5 2 = 3 ∧ roundDiv .even 7 2 = 4 := by decide
example : Reading.ofFloat 1.5 = .finite ⟨false, 3 * 2 ^ 51, -52⟩ := by decide

end PairDatasets.Decimal
