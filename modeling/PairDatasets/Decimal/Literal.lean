import PairDatasets.Decimal.Binary
import PairDatasets.Plain

/-!
Reading numbers from text: whole numbers below a limit, with at most a plus sign before them, and
decimals with point and exponent.
-/
namespace PairDatasets.Decimal
open Plain

/-- Why a text is no whole number in range. -/
inductive WholeError where
  | empty
  | badDigit
  | tooLarge
  deriving DecidableEq, Repr

def WholeError.message : WholeError → String
  | empty => "cannot parse integer from empty string"
  | badDigit => "invalid digit found in string"
  | tooLarge => "number too large to fit in target type"

/-- The value of an ASCII digit. -/
def digit? (c : Char) : Option Nat :=
  if '0' ≤ c ∧ c ≤ '9' then some (c.toNat - '0'.toNat) else none

/-- Read digits from the left; the first that is no digit or makes the number too large decides. -/
def wholeDigits (limit : Nat) : Nat → List Char → Except WholeError Nat
  | n, [] => .ok n
  | n, c :: cs =>
    match digit? c with
    | none => .error .badDigit
    | some d => if n * 10 + d < limit then wholeDigits limit (n * 10 + d) cs else .error .tooLarge

/-- A whole number below `limit`: digits, with at most one plus sign in front. -/
def whole (limit : Nat) : List Char → Except WholeError Nat
  | [] => .error .empty
  | ['+'] => .error .badDigit
  | '+' :: cs => wholeDigits limit 0 cs
  | cs => wholeDigits limit 0 cs

/-- Whole numbers of 64 bits. -/
def whole64 (s : String) : Except WholeError Nat := whole (2 ^ (64 : Nat)) s.toList

/-- Why a text is no decimal. -/
inductive DecimalError where
  | empty
  | invalid
  deriving DecidableEq, Repr

def DecimalError.message : DecimalError → String
  | empty => "cannot parse float from empty string"
  | invalid => "invalid float literal"

/-- The digits at the front, and what follows them. -/
def spanDigits (cs : List Char) : List Char × List Char :=
  (cs.takeWhile Char.isDigit, cs.dropWhile Char.isDigit)

/-- The number that digits spell. -/
def ofDigits (cs : List Char) : Nat := cs.foldl (fun n c => n * 10 + (c.toNat - '0'.toNat)) 0

def infinity : Float := 1.0 / 0.0

def notANumber : Float := 0.0 / 0.0

/-- The double nearest to `digits · 10 ^ exponent`. Beyond 10³¹⁰ it is infinite, below 10⁻³⁵⁰ zero,
so no larger powers are ever formed. -/
def nearest (digits : List Char) (exponent : Int) : Float :=
  let n := ofDigits digits
  let top : Int := (digits.dropWhile (· = '0')).length + exponent
  if n = 0 then 0.0
  else if 310 < top then infinity
  else if top < -350 then 0.0
  else if exponent < 0 then Float.ofScientific n true exponent.natAbs
  else Float.ofScientific n false exponent.natAbs

/-- An exponent after its letter: an optional sign and at least one digit. -/
def exponentPart? (cs : List Char) : Option Int :=
  let (negative, cs) := match cs with
    | '-' :: cs => (true, cs)
    | '+' :: cs => (false, cs)
    | cs => (false, cs)
  let (ds, rest) := spanDigits cs
  if ds.isEmpty || !rest.isEmpty then none
  else some (if negative then -(ofDigits ds : Int) else ofDigits ds)

/-- An unsigned decimal: digits with an optional point, at least one digit, an optional exponent. -/
def unsigned? (cs : List Char) : Option Float :=
  let (ds, rest) := spanDigits cs
  let (fs, rest) := match rest with
    | '.' :: rest => spanDigits rest
    | rest => ([], rest)
  if ds.isEmpty && fs.isEmpty then none
  else
    match rest with
    | [] => some (nearest (ds ++ fs) (-fs.length))
    | c :: rest =>
      if c = 'e' || c = 'E' then
        (exponentPart? rest).map fun e => nearest (ds ++ fs) (e - fs.length)
      else none

/-- The words for values that digits cannot spell, in any case. -/
def special? (cs : List Char) : Option Float :=
  let word := cs.map Char.toLower
  if word = "inf".toList || word = "infinity".toList then some infinity
  else if word = "nan".toList then some notANumber
  else none

/-- A double from text: an optional sign, then a decimal or a word. -/
def double (s : String) : Except DecimalError Float :=
  let cs := s.toList
  if cs.isEmpty then .error .empty
  else
    let (negative, body) := match cs with
      | '-' :: cs => (true, cs)
      | '+' :: cs => (false, cs)
      | cs => (false, cs)
    match (special? body).orElse fun _ => unsigned? body with
    | none => .error .invalid
    | some x => .ok (if negative then -x else x)

example : whole 256 "+0255".toList = .ok 255 := by rfl
example : whole 256 "256x".toList = .error .tooLarge := by rfl
example : whole 256 "25x6".toList = .error .badDigit := by rfl

end PairDatasets.Decimal
