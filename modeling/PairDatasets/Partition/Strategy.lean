import PairDatasets.Error

/-!
How problems and solutions are to be divided: the strategies, and the amount set aside for testing.
-/
namespace PairDatasets

/-- `floor (n · f)` for a fraction `f` of `n` things, computed in doubles. -/
def cut (f : Float) (n : Nat) : Nat := (Float.ofNat n * f).toUInt64.toNat

/-- Fractions that leave something over. -/
def isProperFraction (f : Float) : Bool := 0.0 ≤ f && f < 1.0

/-- Fractions up to the whole. -/
def isFraction (f : Float) : Bool := 0.0 ≤ f && f ≤ 1.0

/-- Problems set aside for testing. -/
inductive TestAmount where
  | none
  | fraction (f : Float)
  | count (n : Nat)
  deriving DecidableEq

namespace TestAmount

/-- Whether a double of at least 1 has no fraction. From 2⁵³ on all of them are whole. -/
def isWhole (x : Float) : Bool := 9007199254740992.0 ≤ x || x.toUInt64.toFloat == x

/-- One number for both kinds of amount: below 1 a fraction, from 1 on a count. -/
def ofNumber (x : Float) : Except DatasetError TestAmount :=
  if !x.isFinite || x < 0.0 then .error (.configuration (.testAmount x))
  else if x == 0.0 then .ok .none
  else if x < 1.0 then .ok (.fraction x)
  else if isWhole x then .ok (.count x.toUInt64.toNat)
  else .error (.configuration (.testCount x))

/-- How many problems an amount asks for. -/
def requested (problems : Nat) : TestAmount → Except DatasetError Nat
  | .none => .ok 0
  | .fraction f =>
    if isProperFraction f then .ok (cut f problems)
    else .error (.configuration (.testFraction f))
  | .count n => .ok n

/-- How many of `problems` problems are set aside: none, or at least two and at most all. -/
def resolve (amount : TestAmount) (problems : Nat) : Except DatasetError Nat := do
  let count ← amount.requested problems
  if count = 1 then .error (.splitTooSmall .test count)
  else if problems < count then .error (.tooFewProblems count problems)
  else .ok count

end TestAmount

/-- How a corpus is divided. -/
inductive Strategy where
  /-- The three splits have no problem in common. -/
  | disjointProblems (test : TestAmount) (validation : Float)
  /-- Test problems are apart; training and validation share the solutions of all others. -/
  | sameProblems (test : TestAmount) (validation : Float)
  /-- Every problem gives solutions to every split. -/
  | balanced (test validation : Float)
  deriving DecidableEq

/-- The share of validation where none is named. -/
def Strategy.defaultValidation : Float := 0.2

instance : Inhabited Strategy := ⟨.disjointProblems .none Strategy.defaultValidation⟩

end PairDatasets
