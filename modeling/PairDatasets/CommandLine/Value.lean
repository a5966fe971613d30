import PairDatasets.CommandLine.Grammar
import PairDatasets.Decimal.Literal
import PairDatasets.Partition.Strategy
import PairDatasets.Text.Blank

/-!
The kinds of values that options take.
-/
namespace PairDatasets.Value

/-- A path is not empty. -/
def path (s : String) : Except ValueFault String :=
  if s.isEmpty then .error .notAllowed else .ok s

/-- A whole number of 64 bits. -/
def number (s : String) : Except ValueFault Nat :=
  (Decimal.whole64 s).mapError fun e => .rejected e.message

/-- A whole number above zero. -/
def positive (s : String) : Except ValueFault Nat :=
  match Decimal.whole64 s with
  | .error _ => .error (.rejected s!"Could not parse '{s}' as a positive integer")
  | .ok n => if n = 0 then .error (.rejected "value must be greater than zero") else .ok n

/-- Any double. -/
def double (s : String) : Except ValueFault Float :=
  (Decimal.double s).mapError fun e => .rejected e.message

/-- A double from 0 to 1, between white space. -/
def fraction (s : String) : Except ValueFault Float :=
  match Decimal.double (Text.trim s) with
  | .error _ => .error (.rejected s!"invalid fraction '{Text.trim s}': must be a float")
  | .ok x =>
    if isFraction x then .ok x
    else .error (.rejected ("fraction must be in [0, 1], got " ++ amount x))

/-- One of some words. -/
def choice {α : Type} (words : List (String × α)) (s : String) : Except ValueFault α :=
  match words.find? fun (w, _) => w = s with
  | some (_, a) => .ok a
  | none => .error .notAllowed

end PairDatasets.Value
