import PairDatasets.Decimal.Binary
import PairDatasets.Plain

/-!
The shortest decimal that reads back as a given double. A double stands for every real that rounds
to it; of the decimals with 1, 2, 3, … digits the two neighbours of its exact value are tried, and
the first digit count with one of them in that interval wins. If both are in it, the nearer is
taken, and an exact tie goes as asked. All of it is arithmetic on natural numbers.
-/
namespace PairDatasets.Decimal
open Plain

/-- `digits · 10 ^ exponent`. -/
structure Scientific where
  digits : Nat
  exponent : Int
  deriving DecidableEq, Repr

def digitChars (n : Nat) : List Char := Nat.toDigits 10 n

def digitCount (n : Nat) : Nat := (digitChars n).length

/-- The exponent `k` with `10 ^ (k - 1) ≤ num / den < 10 ^ k`. -/
def magnitude (num den : Nat) : Int :=
  if den ≤ num then digitCount (num / den) else 1 - digitCount ((den - 1) / num)

/-- The reals that round to `mantissa · 2 ^ exponent`, in quarters of the last binary place. The
ends belong to them when the mantissa is even. The lower neighbour of a power of two is only half
as far away. -/
structure Interval where
  value : Nat
  low : Nat
  high : Nat
  closed : Bool
  exponent : Int
  deriving DecidableEq, Repr

def Interval.of (b : Binary) : Interval where
  value := 4 * b.mantissa
  low := if b.mantissa = 2 ^ (52 : Nat) ∧ -1074 < b.exponent then 4 * b.mantissa - 1 else 4 * b.mantissa - 2
  high := 4 * b.mantissa + 2
  closed := b.mantissa % 2 = 0
  exponent := b.exponent - 2

/-- Factors that bring quarters and multiples of `10 ^ k` to one unit. -/
def Interval.scales (i : Interval) (k : Int) : Nat × Nat :=
  (2 ^ i.exponent.toNat * 10 ^ (-k).toNat, 2 ^ (-i.exponent).toNat * 10 ^ k.toNat)

/-- Whether `d · 10 ^ k` rounds to the double. -/
def Interval.holds (i : Interval) (k : Int) (d : Nat) : Bool :=
  let (quarter, unit) := i.scales k
  if i.closed then i.low * quarter ≤ d * unit && d * unit ≤ i.high * quarter
  else i.low * quarter < d * unit && d * unit < i.high * quarter

/-- The best multiple of `10 ^ k` in the interval, among the two neighbours of the value. -/
def Interval.best? (tie : Tie) (i : Interval) (k : Int) : Option Nat :=
  let (quarter, unit) := i.scales k
  let d := i.value * quarter / unit
  match i.holds k d, i.holds k (d + 1) with
  | true, true => some (roundDiv tie (i.value * quarter) unit)
  | true, false => some d
  | false, true => some (d + 1)
  | false, false => none

/-- Try grids from coarse to fine. -/
def Interval.search (tie : Tie) (i : Interval) : Nat → Int → Scientific
  | 0, k => ⟨i.value * (i.scales k).1 / (i.scales k).2, k⟩
  | tries + 1, k =>
    match i.best? tie k with
    | some d => ⟨d, k⟩
    | none => search tie i tries (k - 1)

/-- Move zeros at the end of the digits into the exponent. -/
def Scientific.trimmed : Nat → Scientific → Scientific
  | 0, s => s
  | fuel + 1, s =>
    if s.digits ≠ 0 ∧ s.digits % 10 = 0 then trimmed fuel ⟨s.digits / 10, s.exponent + 1⟩ else s

/-- The shortest decimal for a value above zero; 17 digits always suffice. -/
def shortest (tie : Tie) (b : Binary) : Scientific :=
  if b.mantissa = 0 then ⟨0, 0⟩
  else
    let (num, den) := b.quotient
    ((Interval.of b).search tie 17 (magnitude num den - 1)).trimmed 17

/-- How decimals are laid out. -/
structure Layout where
  /-- Where a tie between two shortest decimals goes. -/
  tie : Tie
  /-- Whether a whole number ends in `.0`. -/
  wholePoint : Bool
  /-- The exponents of the leading digit that are written without an exponent; all if absent. -/
  plain : Option (Int × Int)
  deriving DecidableEq, Repr

/-- Digits with the decimal point in its place. -/
def Layout.positional (l : Layout) (s : Scientific) : List Char :=
  let ds := digitChars s.digits
  let point : Int := ds.length + s.exponent
  if 0 ≤ s.exponent then
    ds ++ List.replicate s.exponent.toNat '0' ++ if l.wholePoint then ['.', '0'] else []
  else if 0 < point then ds.take point.toNat ++ '.' :: ds.drop point.toNat
  else '0' :: '.' :: List.replicate (-point).toNat '0' ++ ds

/-- One digit before the point, and the exponent with its sign. -/
def Layout.exponential (s : Scientific) : List Char :=
  let ds := digitChars s.digits
  let e : Int := ds.length + s.exponent - 1
  let fraction := match ds.drop 1 with
    | [] => []
    | rest => '.' :: rest
  ds.take 1 ++ fraction ++ 'e' :: (if e < 0 then '-' else '+') :: digitChars e.natAbs

def Layout.unsigned (l : Layout) (s : Scientific) : List Char :=
  let e : Int := (digitChars s.digits).length + s.exponent - 1
  match l.plain with
  | none => l.positional s
  | some (lo, hi) => if lo ≤ e ∧ e ≤ hi then l.positional s else Layout.exponential s

/-- The text of a double. -/
def Layout.text (l : Layout) (x : Float) : String :=
  match Reading.ofFloat x with
  | .notANumber => "NaN"
  | .infinite negative => if negative then "-inf" else "inf"
  | .finite b =>
    let cs := l.unsigned (shortest l.tie b)
    String.ofList (if b.negative then '-' :: cs else cs)

example : shortest .up ⟨false, 1, -1074⟩ = ⟨5, -324⟩ := by decide +kernel
example : shortest .up ⟨false, 2, -1074⟩ = ⟨1, -323⟩ := by decide +kernel

end PairDatasets.Decimal
